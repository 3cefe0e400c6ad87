import SchemaMigration.Proofs.Store.Record

/-!
# Running bodies

A body that does not name the version table cannot tell its rows.

* `StoreOptions.record_keeps_of_statements`: what its two statements keep, a recording keeps;
* `StoreOptions.run_keeps`: what statements that do not name the table keep, a body keeps;
* `StoreOptions.run_withRows`: beside other rows in the version table a body succeeds alike and
  leaves the same changes, whatever transactions it begins and ends;
* `StoreOptions.run_of_statement`: in a transaction of its own a single statement does what it does;
* `StoreOptions.run_undone`: in a transaction of its own a body that fails and closes no transaction
  leaves the content as it was.
-/

namespace SchemaMigration

open Sql (Session Connection Database Row Statement Outcome)

/-! ## Two runs side by side -/

/-- Two outcomes that differ in their connections, of which `f` makes one from the other. Failures
may be told in different terms. -/
inductive AlikeOutcomes {ε α : Type} (I : Connection → Prop) (f : Connection → Connection) :
    Outcome ε α → Outcome ε α → Prop
  | failed {e e' : ε} {stop : Connection} {trail trail' : List Connection} (holds : I stop) :
      AlikeOutcomes I f ⟨.error e, stop, trail⟩ ⟨.error e', f stop, trail'⟩
  | answered {value : α} {stop : Connection} {trail trail' : List Connection} (holds : I stop) :
      AlikeOutcomes I f ⟨.ok value, stop, trail⟩ ⟨.ok value, f stop, trail'⟩

/-- Two programs do the same from connections of which `f` makes one from the other. -/
def Alike {ε α : Type} (I : Connection → Prop) (f : Connection → Connection)
    (left right : Session ε α) : Prop :=
  ∀ start, I start → AlikeOutcomes I f (left start) (right (f start))

namespace Alike

variable {ε ε' α β : Type} {I : Connection → Prop} {f : Connection → Connection}

theorem throw (e e' : ε) :
    Alike I f (MonadExcept.throw e : Session ε α) (MonadExcept.throw e' : Session ε α) :=
  fun _ holds => .failed holds

theorem pure (value : α) :
    Alike I f (Pure.pure value : Session ε α) (Pure.pure value : Session ε α) :=
  fun _ holds => .answered holds

theorem bind {left right : Session ε α} {leftNext rightNext : α → Session ε β}
    (first : Alike I f left right) (next : ∀ value, Alike I f (leftNext value) (rightNext value)) :
    Alike I f (left >>= leftNext) (right >>= rightNext) := by
  intro start holds
  have alike := first start holds
  generalize leftRun : left start = leftOutcome at alike
  generalize rightRun : right (f start) = rightOutcome at alike
  cases alike with
  | failed stopHolds =>
      rw [Session.bind_of_error leftRun, Session.bind_of_error rightRun]
      exact .failed stopHolds
  | @answered value middle _ _ middleHolds =>
      rw [Session.bind_of_ok leftRun, Session.bind_of_ok rightRun]
      have later := next value middle middleHolds
      generalize leftNext value middle = leftOutcome at later
      generalize rightNext value (f middle) = rightOutcome at later
      cases later with
      | failed stopHolds => exact .failed stopHolds
      | answered stopHolds => exact .answered stopHolds

theorem tryCatch {left right : Session ε α} {leftHandle rightHandle : ε → Session ε α}
    (first : Alike I f left right)
    (handle : ∀ e e', Alike I f (leftHandle e) (rightHandle e')) :
    Alike I f (MonadExcept.tryCatch left leftHandle) (MonadExcept.tryCatch right rightHandle) := by
  intro start holds
  have alike := first start holds
  simp only [MonadExcept.tryCatch]
  generalize left start = leftOutcome at alike
  generalize right (f start) = rightOutcome at alike
  cases alike with
  | answered stopHolds => exact .answered stopHolds
  | @failed e e' middle _ _ middleHolds =>
      have later := handle e e' middle middleHolds
      simp only
      generalize leftHandle e middle = leftOutcome at later
      generalize rightHandle e' (f middle) = rightOutcome at later
      cases later with
      | failed stopHolds => exact .failed stopHolds
      | answered stopHolds => exact .answered stopHolds

theorem mapError {left right : Session ε α} (g : ε → ε') (alike : Alike I f left right) :
    Alike I f (Session.mapError g left) (Session.mapError g right) := by
  intro start holds
  have outcomes := alike start holds
  rw [Session.mapError_apply, Session.mapError_apply]
  generalize left start = leftOutcome at outcomes
  generalize right (f start) = rightOutcome at outcomes
  cases outcomes with
  | failed stopHolds => exact .failed stopHolds
  | answered stopHolds => exact .answered stopHolds

theorem forM {items : List β} {program : β → Session ε PUnit}
    (each : ∀ item ∈ items, Alike I f (program item) (program item)) :
    Alike I f (items.forM program) (items.forM program) := by
  induction items with
  | nil => exact pure _
  | cons item rest ih =>
      exact (each item List.mem_cons_self).bind fun _ =>
        ih fun other member => each other (List.mem_cons_of_mem _ member)

theorem issue {statement : Statement}
    (keeps : ∀ before after, I before → before.execute statement = .ok after → I after)
    (same : ∀ before, I before →
      (f before).execute statement = (before.execute statement).map f) :
    Alike I f (Session.issue statement) (Session.issue statement) := by
  intro start holds
  have executed := same start holds
  cases run : start.execute statement with
  | error fault =>
      rw [run] at executed
      rw [Session.issue_of_error run, Session.issue_of_error executed]
      exact .failed holds
  | ok after =>
      rw [run] at executed
      rw [Session.issue_of_ok run, Session.issue_of_ok executed]
      exact .answered (keeps start after holds run)

/-- Programs that are alike and go on alike leave the same connection. -/
theorem connection_bind {left right : Session ε α}
    (alike : Alike (fun _ => True) id left right) {next later : α → Session ε β}
    (same : ∀ value start, (next value start).connection = (later value start).connection)
    (start : Connection) :
    ((left >>= next) start).connection = ((right >>= later) start).connection := by
  have outcomes := alike start trivial
  generalize leftRun : left start = leftOutcome at outcomes
  generalize rightRun : right (id start) = rightOutcome at outcomes
  rw [id] at rightRun
  cases outcomes with
  | failed _ =>
      rw [Session.bind_of_error leftRun, Session.bind_of_error rightRun]
      rfl
  | @answered value stop _ _ _ =>
      rw [Session.bind_of_ok leftRun, Session.bind_of_ok rightRun]
      exact same value stop

/-- Every program is like itself. -/
theorem self (program : Session ε α) :
    Alike (fun _ => True) id program program := by
  intro start _
  rw [id]
  cases program start with
  | mk result stop trail =>
      cases result with
      | error e => exact .failed trivial
      | ok value => exact .answered trivial

/-- A program is like itself with its failures told in other terms. -/
theorem told (g : ε → ε) (program : Session ε α) :
    Alike (fun _ => True) id (Session.mapError g program) program := by
  intro start _
  rw [id, Session.mapError_apply]
  cases program start with
  | mk result stop trail =>
      cases result with
      | error e => exact .failed trivial
      | ok value => exact .answered trivial

end Alike

/-! ## Beside other rows -/

/-- A connection with other rows in the table of a name. -/
def Sql.Connection.withRows (name : String) (rows : List Row) (connection : Connection) :
    Connection where
  committed := connection.committed.withRows name rows
  working := connection.working.map (·.withRows name rows)

section WithRows

variable {ε : Type} {name : String} {rows : List Row} {Q : Database → Prop}

theorem withRows_withContent (connection : Connection) (db : Database) :
    (connection.withRows name rows).withContent (db.withRows name rows) =
      (connection.withContent db).withRows name rows := by
  obtain ⟨committed, working⟩ := connection
  cases working <;> rfl

theorem content_withRows (connection : Connection) :
    (connection.withRows name rows).content = connection.content.withRows name rows := by
  obtain ⟨committed, working⟩ := connection
  cases working <;> rfl

/-- A statement that works alike on contents works alike over connections. -/
theorem execute_connection_withRows {connection : Connection} {statement : Statement}
    (has : connection.Has Q)
    (same : ∀ db, Q db → (db.withRows name rows).execute statement =
      (db.execute statement).map (·.withRows name rows)) :
    (connection.withRows name rows).execute statement =
      (connection.execute statement).map (Connection.withRows name rows) := by
  obtain ⟨committed, working⟩ := connection
  rcases statement.control_cases with rfl | rfl | rfl | ordinary
  · cases working <;> rfl
  · cases working <;> rfl
  · cases working <;> rfl
  · rcases Statement.eq_vacuum_or_heedsTransaction ordinary with rfl | unheeding
    · cases working with
      | some content => rfl
      | none =>
          have packed := Except.ok.inj (same committed has.committed)
          exact congrArg (fun db => Except.ok (Connection.mk db none)) packed
    · rw [Connection.execute_eq _ unheeding, Connection.execute_eq _ unheeding, content_withRows,
        same _ has.content]
      cases Connection.content ⟨committed, working⟩ |>.execute statement with
      | error fault => rfl
      | ok db => exact congrArg Except.ok (withRows_withContent _ db)

theorem abandon_alike :
    Alike (Connection.Has Q) (Connection.withRows name rows) (Session.abandon : Session ε Unit)
      Session.abandon := by
  intro start has
  obtain ⟨committed, working⟩ := start
  cases working with
  | none => exact .answered has
  | some db => exact .answered has.closed

/-- What a content keeps under a statement, and how it looks beside other rows. -/
structure Unseen (Q : Database → Prop) (name : String) (rows : List Row) (statement : Statement) :
    Prop where
  keeps : ∀ before after, Q before → before.execute statement = .ok after → Q after
  same : ∀ db, Q db → (db.withRows name rows).execute statement =
    (db.execute statement).map (·.withRows name rows)

theorem Unseen.of_control {statement : Statement}
    (control : statement.isTransactionControl = true) : Unseen Q name rows statement := by
  refine ⟨fun before after holds done => ?_, fun db _ => ?_⟩
  · cases (before.execute_of_control control).symm.trans done
    exact holds
  · rw [Database.execute_of_control _ control, Database.execute_of_control _ control]
    rfl

theorem Unseen.issue {statement : Statement} (unseen : Unseen Q name rows statement) :
    Alike (Connection.Has Q) (Connection.withRows name rows) (Session.issue statement)
      (Session.issue statement) :=
  Alike.issue (fun _ _ has done => has.execute unseen.keeps done)
    fun _ has => execute_connection_withRows has unseen.same

theorem batch_alike {items : List Sql.BatchItem}
    (unseen : ∀ statement, .statement statement ∈ items → Unseen Q name rows statement) :
    Alike (Connection.Has Q) (Connection.withRows name rows) (Session.batch items)
      (Session.batch items) := by
  refine Alike.forM fun item member => ?_
  cases item with
  | statement statement => exact (unseen statement member).issue
  | broken | unread => exact fun _ has => .failed has

theorem transaction_alike {onBegin onCommit : Sql.Fault → ε} {program : Session ε Unit}
    (alike : Alike (Connection.Has Q) (Connection.withRows name rows) program program) :
    Alike (Connection.Has Q) (Connection.withRows name rows)
      (Session.transaction onBegin onCommit program)
      (Session.transaction onBegin onCommit program) := by
  have control : ∀ {statement : Statement} (g : Sql.Fault → ε),
      statement.isTransactionControl = true →
      Alike (Connection.Has Q) (Connection.withRows name rows)
        (Session.mapError g (Session.issue statement))
        (Session.mapError g (Session.issue statement)) :=
    fun g isControl => Alike.mapError g (Unseen.of_control isControl).issue
  unfold Session.transaction
  refine (control onBegin rfl).bind fun _ => Alike.tryCatch ?_ fun e e' => ?_
  · exact alike.bind fun _ => control onCommit rfl
  · exact abandon_alike.bind fun _ => Alike.throw e e'

end WithRows

namespace StoreOptions

variable {options : StoreOptions} {body : String}

theorem not_mentions_of_statement {name : String} {statement : Statement}
    (apart : ¬ Sql.Mentions (Sql.Batch.tables body) name)
    (member : .statement statement ∈ Sql.Batch.read body) :
    ¬ Sql.Mentions statement.tables name := by
  rintro ⟨table, named, same⟩
  exact apart ⟨table, List.mem_flatMap.mpr ⟨_, member, named⟩, same⟩

theorem checkSize_keeps {P : Connection → Prop} (version : Option Version) :
    Session.Keeps P (checkSize version) := by
  cases version with
  | none => exact Session.keeps_pure ()
  | some number =>
      rw [checkSize]
      split
      · exact Session.keeps_throw _
      · exact Session.keeps_pure ()

/-- What the two statements that replace the row keep, a recording keeps. -/
theorem record_keeps_of_statements {Q : Database → Prop} {version : Option Version} {dirty : Bool}
    (clears : ∀ before after, Q before →
      before.execute (.delete options.table none) = .ok after → Q after)
    (fills : ∀ before after, Q before →
      before.execute (.insert options.table (some ["version", "dirty"]) [rowOf version dirty]) =
        .ok after → Q after) :
    Session.Keeps (Connection.Has Q) (options.record version dirty) := by
  have replaced : Session.Keeps (Connection.Has Q) (options.replaceRow version dirty) := by
    refine (Session.Keeps.mapError _ (Session.keeps_issue fun _ _ has done =>
      has.execute clears done)).bind fun _ => ?_
    split
    · exact Session.Keeps.mapError _
        (Session.keeps_issue fun _ _ has done => has.execute fills done)
    · exact Session.keeps_pure _
  exact (checkSize_keeps version).bind fun _ => Session.transaction_keeps replaced

/-- What the statements of a body keep, the body keeps. -/
theorem run_keeps_of_statements {Q : Database → Prop}
    (step : ∀ statement, .statement statement ∈ Sql.Batch.read body →
      ∀ before after, Q before → before.execute statement = .ok after → Q after) :
    Session.Keeps (Connection.Has Q) (options.run body) := by
  have statements : Session.Keeps (Connection.Has Q)
      (Session.mapError Error.bodyFailed (Session.batch (Sql.Batch.read body))) :=
    Session.Keeps.mapError _ (Session.batch_keeps step)
  unfold run
  split
  · exact statements
  · exact Session.transaction_keeps statements

/-- **What a body keeps.** A property of contents that statements keep as long as they do not name
the version table is kept by a body that does not name it. -/
theorem run_keeps {Q : Database → Prop}
    (step : ∀ statement, ¬ Sql.Mentions statement.tables options.table →
      ∀ before after, Q before → before.execute statement = .ok after → Q after)
    (apart : ¬ Sql.Mentions (Sql.Batch.tables body) options.table) :
    Session.Keeps (Connection.Has Q) (options.run body) :=
  run_keeps_of_statements fun statement member =>
    step statement (not_mentions_of_statement apart member)

/-- What statements keep holds after a body that succeeded. -/
theorem of_run {Q : Database → Prop}
    (step : ∀ statement, ¬ Sql.Mentions statement.tables options.table →
      ∀ before after, Q before → before.execute statement = .ok after → Q after)
    (apart : ¬ Sql.Mentions (Sql.Batch.tables body) options.table) {before after : Database}
    {trail : List Connection} (holds : Q before)
    (ran : options.run body ⟨before, none⟩ = ⟨.ok (), ⟨after, none⟩, trail⟩) : Q after := by
  have start : Connection.Has Q ⟨before, none⟩ := .outside holds
  have stop := (run_keeps step apart _ start).1
  rw [ran] at stop
  exact stop.committed

/-- The rows of the version table may be any: no reference goes to it and none out of it. -/
structure Blind (options : StoreOptions) (db : Database) : Prop where
  isolated : db.Isolated options.table
  wellFormed : db.WellFormed

theorem execute_keeps_blind {statement : Statement}
    (apart : ¬ Sql.Mentions statement.tables options.table) (before after : Database)
    (blind : options.Blind before) (done : before.execute statement = .ok after) :
    options.Blind after :=
  ⟨(Database.execute_change done).isolated apart blind.isolated,
    (Database.execute_change done).wellFormed blind.wellFormed⟩

/-- **A body does not see the version rows.** Beside other rows, numbered from 1 on, it succeeds
alike and leaves the same changes. -/
theorem run_withRows (apart : ¬ Sql.Mentions (Sql.Batch.tables body) options.table)
    {rows : List Row} (numbered : Database.Numbered rows) :
    Alike (Connection.Has options.Blind) (Connection.withRows options.table rows)
      (options.run body) (options.run body) := by
  have statements : Alike (Connection.Has options.Blind) (Connection.withRows options.table rows)
      (Session.mapError Error.bodyFailed (Session.batch (Sql.Batch.read body)))
      (Session.mapError Error.bodyFailed (Session.batch (Sql.Batch.read body))) := by
    refine Alike.mapError _ (batch_alike fun statement member => ?_)
    have notNamed := not_mentions_of_statement apart member
    exact ⟨execute_keeps_blind notNamed, fun db blind =>
      Database.execute_withRows blind.isolated notNamed numbered⟩
  unfold run
  split
  · exact statements
  · exact transaction_alike statements

/-! ## Bodies in a transaction of their own -/

theorem run_of_wrapped (wrapped : options.unwrapped = false) (body : String) :
    options.run body = Session.transaction .transactionRefused .bodyNotCommitted
      (Session.mapError Error.bodyFailed (Session.batch (Sql.Batch.read body))) := by
  unfold run
  rw [if_neg (by rw [wrapped]; exact Bool.false_ne_true)]

/-- A body that is run in a transaction of its own leaves none open. -/
theorem run_closed (wrapped : options.unwrapped = false) (body : String) (db : Database) :
    (options.run body ⟨db, none⟩).connection.working = none := by
  rw [run_of_wrapped wrapped]
  exact Session.transaction_closed _ db

/-- A body of one statement that heeds no transaction does what the statement does. -/
theorem run_of_statement (wrapped : options.unwrapped = false) {statement : Statement}
    (reads : Sql.Batch.read body = [.statement statement])
    (ordinary : statement.heedsTransaction = false) (db : Database) :
    match db.execute statement with
    | .ok after => ∃ trail, options.run body ⟨db, none⟩ = ⟨.ok (), ⟨after, none⟩, trail⟩
    | .error fault =>
      (options.run body ⟨db, none⟩).result = .error (.bodyFailed fault) := by
  have inside : Connection.execute ⟨db, some db⟩ statement =
      (db.execute statement).map fun after => ⟨db, some after⟩ :=
    Connection.execute_eq ⟨db, some db⟩ ordinary
  rw [run_of_wrapped wrapped, reads]
  cases executed : db.execute statement with
  | ok after =>
      rw [executed] at inside
      have issued := Session.issue_of_ok inside
      have batch : Session.mapError Error.bodyFailed (Session.batch [.statement statement])
          ⟨db, some db⟩ = ⟨.ok (), ⟨db, some after⟩, [⟨db, some after⟩]⟩ := by
        rw [Session.mapError_apply]
        unfold Session.batch
        rw [Session.forM_cons_apply, Session.item, Session.bind_of_ok issued]
        rfl
      rw [Session.transaction_of_ok batch]
      exact ⟨_, rfl⟩
  | error fault =>
      rw [executed] at inside
      have issued := Session.issue_of_error inside
      have batch : Session.mapError Error.bodyFailed (Session.batch [.statement statement])
          ⟨db, some db⟩ = ⟨.error (.bodyFailed fault), ⟨db, some db⟩, [⟨db, some db⟩]⟩ := by
        rw [Session.mapError_apply]
        unfold Session.batch
        rw [Session.forM_cons_apply, Session.item, Session.bind_of_error issued]
        rfl
      rw [Session.transaction_of_error batch]

/-! ## Bodies that close no transaction -/

/-- A text without statements that end a transaction. -/
def ClosesNothing (text : String) : Prop :=
  ∀ item ∈ Sql.Batch.read text, item ≠ .statement .commit ∧ item ≠ .statement .rollback

/-- A statement inside a transaction stays inside it unless it ends it. -/
theorem issue_stays {db : Database} {statement : Statement} (notCommit : statement ≠ .commit)
    (notRollback : statement ≠ .rollback) :
    Session.Keeps (fun connection => ∃ content, connection = ⟨db, some content⟩)
      (Session.issue statement) := by
  rcases statement.control_cases with rfl | rfl | rfl | ordinary
  · refine Session.keeps_issue fun before after inside done => ?_
    obtain ⟨content, rfl⟩ := inside
    cases done
  · exact absurd rfl notCommit
  · exact absurd rfl notRollback
  · exact issue_inside ordinary

theorem batch_stays {db : Database} (closesNothing : ClosesNothing body) :
    Session.Keeps (fun connection => ∃ content, connection = ⟨db, some content⟩)
      (Session.batch (Sql.Batch.read body)) := by
  refine Session.Keeps.forM fun item member => ?_
  obtain ⟨notCommit, notRollback⟩ := closesNothing item member
  cases item with
  | statement statement =>
      exact issue_stays (fun same => notCommit (congrArg _ same))
        fun same => notRollback (congrArg _ same)
  | broken begun fault => exact Session.keeps_current.bind fun _ => Session.keeps_throw _
  | unread fault => exact Session.keeps_throw fault

/-- **A failed body is undone.** It is run in a transaction of its own, which it does not close. -/
theorem run_undone (wrapped : options.unwrapped = false) (closesNothing : ClosesNothing body)
    {db : Database} {e : Error} (failed : (options.run body ⟨db, none⟩).result = .error e) :
    (options.run body ⟨db, none⟩).connection = ⟨db, none⟩ := by
  have inside := Session.Keeps.mapError Error.bodyFailed (batch_stays closesNothing)
    ⟨db, some db⟩ ⟨db, rfl⟩
  rw [run_of_wrapped wrapped] at failed ⊢
  cases ran : Session.mapError Error.bodyFailed (Session.batch (Sql.Batch.read body))
      ⟨db, some db⟩ with
  | mk result stop trail =>
      rw [ran] at inside
      obtain ⟨⟨content, same⟩, _⟩ := inside
      cases same
      cases result with
      | error cause => rw [Session.transaction_of_error ran]
      | ok _ =>
          rw [Session.transaction_of_ok ran] at failed
          cases failed

end StoreOptions

end SchemaMigration
