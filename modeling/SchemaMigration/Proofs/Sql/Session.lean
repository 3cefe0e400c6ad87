import SchemaMigration.Proofs.Sql.Change

/-!
# Runs of programs over a connection

How the outcome of a `Session` is made from the outcomes of its parts, and what a program keeps.

* `Session.bind_of_ok`, `Session.bind_of_error`: a sequence of programs;
* `Session.transaction_of_ok`, `Session.transaction_of_error`: a transaction around a program, and
  around one that closes it itself;
* `Session.Keeps`: a property of connections that holds after every statement of a program;
* `Session.batch_keeps`, `Session.transaction_keeps`: what statements keep of a content, a run keeps
  of the committed content and of the content inside an open transaction.
* `Session.Closes`: outside a transaction, a program leaves none open.
-/

namespace SchemaMigration.Sql

/-! ## Kinds of statements -/

/-- A statement begins a transaction, ends one in either way, or is no transaction control. -/
theorem Statement.control_cases (statement : Statement) :
    statement = .begin ∨ statement = .commit ∨ statement = .rollback ∨
      statement.isTransactionControl = false := by
  cases statement with
  | begin => exact .inl rfl
  | commit => exact .inr (.inl rfl)
  | rollback => exact .inr (.inr (.inl rfl))
  | createTable | dropTable | createIndex | dropIndex | alterTable | insert | update | delete
  | select | values | vacuum => exact .inr (.inr (.inr rfl))

/-- Beside the transaction controls only packing heeds transactions. -/
theorem Statement.eq_vacuum_or_heedsTransaction {statement : Statement}
    (ordinary : statement.isTransactionControl = false) :
    statement = .vacuum ∨ statement.heedsTransaction = false := by
  cases statement with
  | begin | commit | rollback => cases ordinary
  | vacuum => exact .inl rfl
  | createTable | dropTable | createIndex | dropIndex | alterTable | insert | update | delete
  | select | values => exact .inr rfl

/-! ## Contents -/

/-- Transactions are no content. -/
theorem Database.execute_of_control (db : Database) {statement : Statement}
    (control : statement.isTransactionControl = true) : db.execute statement = .ok db := by
  rcases statement.control_cases with rfl | rfl | rfl | ordinary
  · rfl
  · rfl
  · rfl
  · cases ordinary.symm.trans control

theorem Connection.content_withContent (connection : Connection) (db : Database) :
    (connection.withContent db).content = db := by
  unfold Connection.withContent
  split
  · rfl
  · rename_i closed
    unfold Connection.content
    rw [show ({ connection with committed := db } : Connection).working = none from closed]
    rfl

/-- A statement that heeds no transaction works on the content. -/
theorem Connection.execute_eq (connection : Connection) {statement : Statement}
    (ordinary : statement.heedsTransaction = false) :
    connection.execute statement =
      (connection.content.execute statement).map connection.withContent := by
  cases statement with
  | begin | commit | rollback | vacuum => cases ordinary
  | createTable | dropTable | createIndex | dropIndex | alterTable | insert | update | delete
  | select | values => rfl

/-- Outside a transaction a statement that is no transaction control works on the content. -/
theorem Connection.execute_outside (db : Database) {statement : Statement}
    (ordinary : statement.isTransactionControl = false) :
    Connection.execute ⟨db, none⟩ statement =
      (db.execute statement).map fun after => ⟨after, none⟩ := by
  rcases Statement.eq_vacuum_or_heedsTransaction ordinary with rfl | unheeding
  · rfl
  · exact execute_eq ⟨db, none⟩ unheeding

/-- A statement that is no transaction control, and is not refused, works on the content. -/
theorem Connection.of_execute_ok {connection after : Connection} {statement : Statement}
    (ordinary : statement.isTransactionControl = false)
    (done : connection.execute statement = .ok after) :
    ∃ db, connection.content.execute statement = .ok db ∧ after = connection.withContent db := by
  have works : connection.execute statement =
      (connection.content.execute statement).map connection.withContent := by
    obtain ⟨committed, working⟩ := connection
    cases working with
    | none => exact execute_outside committed ordinary
    | some content =>
        rcases Statement.eq_vacuum_or_heedsTransaction ordinary with rfl | unheeding
        · cases done
        · exact execute_eq _ unheeding
  rw [works] at done
  cases ran : connection.content.execute statement with
  | error fault =>
      rw [ran] at done
      cases done
  | ok db =>
      rw [ran] at done
      cases done
      exact ⟨db, rfl, rfl⟩

theorem Connection.content_of_execute {connection after : Connection} {statement : Statement}
    (ordinary : statement.isTransactionControl = false)
    (done : connection.execute statement = .ok after) :
    connection.content.execute statement = .ok after.content := by
  obtain ⟨db, ran, rfl⟩ := Connection.of_execute_ok ordinary done
  rw [ran, Connection.content_withContent]

namespace Session

variable {ε ε' α β : Type}

/-! ## Outcomes of sequences -/

theorem pure_apply (value : α) (connection : Connection) :
    (pure value : Session ε α) connection = ⟨.ok value, connection, []⟩ :=
  rfl

theorem throw_apply (e : ε) (connection : Connection) :
    (throw e : Session ε α) connection = ⟨.error e, connection, []⟩ :=
  rfl

theorem bind_of_ok {first : Session ε α} {next : α → Session ε β} {start middle : Connection}
    {value : α} {trail : List Connection} (done : first start = ⟨.ok value, middle, trail⟩) :
    (first >>= next) start =
      { next value middle with trail := trail ++ (next value middle).trail } := by
  show andThen first next start = _
  simp only [andThen, done]

/-- A part that issues nothing leaves no trace. -/
theorem bind_of_answer {first : Session ε α} {next : α → Session ε β} {start middle : Connection}
    {value : α} (done : first start = ⟨.ok value, middle, []⟩) :
    (first >>= next) start = next value middle := by
  rw [bind_of_ok done, List.nil_append]

theorem bind_of_error {first : Session ε α} {next : α → Session ε β} {start stop : Connection}
    {e : ε} {trail : List Connection} (failed : first start = ⟨.error e, stop, trail⟩) :
    (first >>= next) start = ⟨.error e, stop, trail⟩ := by
  show andThen first next start = _
  simp only [andThen, failed]

theorem bind_assoc {γ : Type} (first : Session ε α) (second : α → Session ε β)
    (third : β → Session ε γ) :
    first >>= second >>= third = first >>= fun value => second value >>= third := by
  funext start
  cases run : first start with
  | mk result middle trail =>
      cases result with
      | error e => rw [bind_of_error (bind_of_error run), bind_of_error run]
      | ok value =>
          cases runNext : second value middle with
          | mk resultNext stop trailNext =>
              cases resultNext with
              | error e =>
                  have both : (first >>= second) start = ⟨.error e, stop, trail ++ trailNext⟩ := by
                    rw [bind_of_ok run, runNext]
                  rw [bind_of_error both, bind_of_ok run, bind_of_error runNext]
              | ok valueNext =>
                  have both : (first >>= second) start =
                      ⟨.ok valueNext, stop, trail ++ trailNext⟩ := by
                    rw [bind_of_ok run, runNext]
                  rw [bind_of_ok both, bind_of_ok run, bind_of_ok runNext, List.append_assoc]

/-- A sequence that succeeds: its first part does, and what follows does from there. -/
theorem of_bind_ok {first : Session ε α} {next : α → Session ε β} {start : Connection} {b : β}
    (done : ((first >>= next) start).result = .ok b) :
    ∃ value, (first start).result = .ok value ∧
      (next value (first start).connection).result = .ok b ∧
      ((first >>= next) start).connection = (next value (first start).connection).connection := by
  cases run : first start with
  | mk result middle trail =>
      cases result with
      | error e =>
          rw [bind_of_error run] at done
          cases done
      | ok value =>
          rw [bind_of_ok run] at done ⊢
          exact ⟨value, rfl, done, rfl⟩

theorem forM_cons_apply (program : α → Session ε PUnit) (item : α) (rest : List α)
    (start : Connection) :
    (item :: rest).forM program start = (program item >>= fun _ => rest.forM program) start :=
  rfl

theorem query_apply (read : Database → Except ε α) (connection : Connection) :
    query read connection = ⟨read connection.content, connection, []⟩ :=
  rfl

theorem mapError_apply (f : ε → ε') (program : Session ε α) (connection : Connection) :
    mapError f program connection =
      ⟨(program connection).result.mapError f, (program connection).connection,
        (program connection).trail⟩ :=
  rfl

theorem of_mapError_ok {f : ε → ε'} {program : Session ε α} {start : Connection} {value : α}
    (done : (mapError f program start).result = .ok value) :
    (program start).result = .ok value := by
  rw [mapError_apply] at done
  cases run : (program start).result with
  | error e =>
      rw [run] at done
      cases done
  | ok other =>
      rw [run] at done
      exact congrArg Except.ok (Except.ok.inj done)

theorem mapError_result_eq_ok_iff {f : ε → ε'} {program : Session ε α} {start : Connection}
    {value : α} :
    (mapError f program start).result = .ok value ↔ (program start).result = .ok value :=
  ⟨of_mapError_ok, fun done => by rw [mapError_apply, done]; rfl⟩

theorem issue_of_ok {statement : Statement} {start after : Connection}
    (done : start.execute statement = .ok after) :
    issue statement start = ⟨.ok (), after, [after]⟩ := by
  simp only [issue, done]

theorem issue_of_error {statement : Statement} {start : Connection} {fault : Fault}
    (failed : start.execute statement = .error fault) :
    issue statement start = ⟨.error fault, start, [start]⟩ := by
  simp only [issue, failed]

theorem of_issue_ok {statement : Statement} {start : Connection}
    (done : (issue statement start).result = .ok ()) :
    start.execute statement = .ok (issue statement start).connection := by
  unfold issue at *
  split at done
  · rename_i after executed
    exact executed
  · cases done

/-! ## Outcomes of transactions -/

section Transaction

variable {onBegin onCommit : Fault → ε} {program : Session ε Unit} {db committed content : Database}
  {trail : List Connection}

/-- A program that leaves its transaction open has its content committed at the end. -/
theorem transaction_of_ok
    (done : program ⟨db, some db⟩ = ⟨.ok (), ⟨committed, some content⟩, trail⟩) :
    transaction onBegin onCommit program ⟨db, none⟩ =
      ⟨.ok (), ⟨content, none⟩, ⟨db, some db⟩ :: trail ++ [⟨content, none⟩]⟩ := by
  have commit : mapError onCommit (issue .commit) ⟨committed, some content⟩ =
      ⟨.ok (), ⟨content, none⟩, [⟨content, none⟩]⟩ := rfl
  have body : (program >>= fun _ => mapError onCommit (issue .commit)) ⟨db, some db⟩ =
      ⟨.ok (), ⟨content, none⟩, trail ++ [⟨content, none⟩]⟩ := by
    rw [bind_of_ok done, commit]
  have begun : mapError onBegin (issue .begin) ⟨db, none⟩ =
      ⟨.ok (), ⟨db, some db⟩, [⟨db, some db⟩]⟩ := rfl
  unfold transaction
  rw [bind_of_ok begun]
  simp only [tryCatch, MonadExcept.tryCatch, body]
  rfl

/-- A program that fails inside its transaction leaves what was committed before it failed. -/
theorem transaction_of_error {e : ε}
    (failed : program ⟨db, some db⟩ = ⟨.error e, ⟨committed, some content⟩, trail⟩) :
    transaction onBegin onCommit program ⟨db, none⟩ =
      ⟨.error e, ⟨committed, none⟩, ⟨db, some db⟩ :: trail ++ [⟨committed, none⟩]⟩ := by
  have body : (program >>= fun _ => mapError onCommit (issue .commit)) ⟨db, some db⟩ =
      ⟨.error e, ⟨committed, some content⟩, trail⟩ := bind_of_error failed
  have begun : mapError onBegin (issue .begin) ⟨db, none⟩ =
      ⟨.ok (), ⟨db, some db⟩, [⟨db, some db⟩]⟩ := rfl
  unfold transaction
  rw [bind_of_ok begun]
  simp only [tryCatch, MonadExcept.tryCatch, body]
  rfl

/-- There is nothing to abandon where no transaction is open. -/
theorem abandon_of_closed (e : ε) :
    (abandon >>= fun _ => throw e : Session ε Unit) ⟨committed, none⟩ =
      ⟨.error e, ⟨committed, none⟩, []⟩ :=
  rfl

/-- A program that closed its transaction itself and then fails leaves what was committed by
then. -/
theorem transaction_of_error_closed {e : ε}
    (failed : program ⟨db, some db⟩ = ⟨.error e, ⟨committed, none⟩, trail⟩) :
    transaction onBegin onCommit program ⟨db, none⟩ =
      ⟨.error e, ⟨committed, none⟩, ⟨db, some db⟩ :: trail⟩ := by
  have body : (program >>= fun _ => mapError onCommit (issue .commit)) ⟨db, some db⟩ =
      ⟨.error e, ⟨committed, none⟩, trail⟩ := bind_of_error failed
  have begun : mapError onBegin (issue .begin) ⟨db, none⟩ =
      ⟨.ok (), ⟨db, some db⟩, [⟨db, some db⟩]⟩ := rfl
  unfold transaction
  rw [bind_of_ok begun]
  simp only [tryCatch, MonadExcept.tryCatch, body, abandon_of_closed, List.append_nil]
  rfl

/-- A program that closed its transaction itself leaves nothing to commit at the end. -/
theorem transaction_of_ok_closed
    (done : program ⟨db, some db⟩ = ⟨.ok (), ⟨committed, none⟩, trail⟩) :
    transaction onBegin onCommit program ⟨db, none⟩ =
      ⟨.error (onCommit .commitOutside), ⟨committed, none⟩,
        ⟨db, some db⟩ :: (trail ++ [⟨committed, none⟩])⟩ := by
  have commit : mapError onCommit (issue .commit) ⟨committed, none⟩ =
      ⟨.error (onCommit .commitOutside), ⟨committed, none⟩, [⟨committed, none⟩]⟩ := rfl
  have body : (program >>= fun _ => mapError onCommit (issue .commit)) ⟨db, some db⟩ =
      ⟨.error (onCommit .commitOutside), ⟨committed, none⟩, trail ++ [⟨committed, none⟩]⟩ := by
    rw [bind_of_ok done, commit]
  have begun : mapError onBegin (issue .begin) ⟨db, none⟩ =
      ⟨.ok (), ⟨db, some db⟩, [⟨db, some db⟩]⟩ := rfl
  unfold transaction
  rw [bind_of_ok begun]
  simp only [tryCatch, MonadExcept.tryCatch, body, abandon_of_closed, List.append_nil]
  rfl

/-- No transaction is begun within another. -/
theorem transaction_nested :
    transaction onBegin onCommit program ⟨db, some content⟩ =
      ⟨.error (onBegin .nestedTransaction), ⟨db, some content⟩, [⟨db, some content⟩]⟩ :=
  bind_of_error rfl

theorem abandon_closed (e : ε) (start : Connection) :
    ((abandon >>= fun _ => throw e : Session ε Unit) start).connection.working = none := by
  obtain ⟨committed, working⟩ := start
  cases working with
  | none => rfl
  | some content => rfl

/-- At the end of a transaction none is open, whatever the program did. -/
theorem transaction_closed (program : Session ε Unit) (db : Database) :
    (transaction onBegin onCommit program ⟨db, none⟩).connection.working = none := by
  have begun : mapError onBegin (issue .begin) ⟨db, none⟩ =
      ⟨.ok (), ⟨db, some db⟩, [⟨db, some db⟩]⟩ := rfl
  unfold transaction
  rw [bind_of_ok begun]
  simp only [tryCatch, MonadExcept.tryCatch]
  split
  · rename_i value done
    obtain ⟨_, _, committed, stop⟩ := of_bind_ok done
    rw [stop]
    have commit := of_issue_ok (of_mapError_ok committed)
    simp only [Connection.execute] at commit
    split at commit
    · exact (congrArg Connection.working (Except.ok.inj commit)).symm
    · cases commit
  · rename_i e failed
    exact abandon_closed e _

end Transaction

/-! ## What a program keeps -/

/-- A property of connections that holds after each statement of a program, and at its end, if it
holds at the start. -/
def Keeps (P : Connection → Prop) (program : Session ε α) : Prop :=
  ∀ start, P start →
    P (program start).connection ∧ ∀ point ∈ (program start).trail, P point

section Keeps

variable {P : Connection → Prop}

theorem keeps_pure (value : α) : Keeps P (pure value : Session ε α) :=
  fun _ holds => ⟨holds, fun _ member => nomatch member⟩

theorem keeps_throw (e : ε) : Keeps P (throw e : Session ε α) :=
  fun _ holds => ⟨holds, fun _ member => nomatch member⟩

theorem keeps_current : Keeps P (current : Session ε Connection) :=
  fun _ holds => ⟨holds, fun _ member => nomatch member⟩

theorem Keeps.bind {first : Session ε α} {next : α → Session ε β} (left : Keeps P first)
    (right : ∀ value, Keeps P (next value)) : Keeps P (first >>= next) := by
  intro start holds
  obtain ⟨middleHolds, firstTrail⟩ := left start holds
  cases run : first start with
  | mk result middle trail =>
      rw [run] at middleHolds firstTrail
      cases result with
      | error e =>
          rw [bind_of_error run]
          exact ⟨middleHolds, firstTrail⟩
      | ok value =>
          rw [bind_of_ok run]
          obtain ⟨endHolds, nextTrail⟩ := right value middle middleHolds
          refine ⟨endHolds, fun point member => ?_⟩
          exact (List.mem_append.mp member).elim (firstTrail point) (nextTrail point)

theorem Keeps.tryCatch {program : Session ε α} {handle : ε → Session ε α}
    (left : Keeps P program) (right : ∀ e, Keeps P (handle e)) :
    Keeps P (tryCatch program handle) := by
  intro start holds
  obtain ⟨middleHolds, firstTrail⟩ := left start holds
  simp only [MonadExcept.tryCatch]
  split
  · exact ⟨middleHolds, firstTrail⟩
  · rename_i e _
    obtain ⟨endHolds, nextTrail⟩ := right e _ middleHolds
    refine ⟨endHolds, fun point member => ?_⟩
    exact (List.mem_append.mp member).elim (firstTrail point) (nextTrail point)

theorem Keeps.mapError {program : Session ε α} (f : ε → ε') (keeps : Keeps P program) :
    Keeps P (mapError f program) :=
  keeps

theorem Keeps.forM {items : List β} {f : β → Session ε PUnit}
    (each : ∀ item ∈ items, Keeps P (f item)) : Keeps P (items.forM f) := by
  induction items with
  | nil => exact keeps_pure _
  | cons item rest ih =>
      exact (each item List.mem_cons_self).bind fun _ =>
        ih fun other member => each other (List.mem_cons_of_mem _ member)

theorem keeps_issue {statement : Statement}
    (step : ∀ before after, P before → before.execute statement = .ok after → P after) :
    Keeps P (issue statement) := by
  intro start holds
  unfold issue
  split
  · rename_i after done
    have afterHolds := step start after holds done
    exact ⟨afterHolds, fun point member => List.mem_singleton.mp member ▸ afterHolds⟩
  · exact ⟨holds, fun point member => List.mem_singleton.mp member ▸ holds⟩

theorem keeps_abandon (step : ∀ before, P before → P { committed := before.committed }) :
    Keeps P (abandon : Session ε Unit) := by
  intro start holds
  unfold abandon
  split
  · have closedHolds := step start holds
    exact ⟨closedHolds, fun point member => List.mem_singleton.mp member ▸ closedHolds⟩
  · exact ⟨holds, fun _ member => nomatch member⟩

end Keeps

end Session

/-! ## What transaction control keeps of contents -/

/-- The committed content has a property, and so has the content inside an open transaction. -/
structure Connection.Has (Q : Database → Prop) (connection : Connection) : Prop where
  committed : Q connection.committed
  working : ∀ db, connection.working = some db → Q db

namespace Connection.Has

variable {Q : Database → Prop} {connection after : Connection}

theorem content (has : connection.Has Q) : Q connection.content := by
  unfold Connection.content
  cases open? : connection.working with
  | none => exact has.committed
  | some db => exact has.working db open?

/-- Outside a transaction there is only what is committed. -/
theorem outside {db : Database} (holds : Q db) : Connection.Has Q ⟨db, none⟩ :=
  ⟨holds, fun _ impossible => nomatch impossible⟩

theorem closed (has : connection.Has Q) : Connection.Has Q { committed := connection.committed } :=
  outside has.committed

theorem withContent (has : connection.Has Q) {db : Database} (holds : Q db) :
    (connection.withContent db).Has Q := by
  unfold Connection.withContent
  split
  · exact ⟨has.committed, fun _ same => Option.some.inj same ▸ holds⟩
  · rename_i closed
    refine ⟨holds, fun other open? => ?_⟩
    rw [show ({ connection with committed := db } : Connection).working = connection.working from
      rfl, closed] at open?
    cases open?

theorem execute {statement : Statement} (has : connection.Has Q)
    (step : ∀ before after, Q before → before.execute statement = .ok after → Q after)
    (done : connection.execute statement = .ok after) : after.Has Q := by
  rcases statement.control_cases with rfl | rfl | rfl | ordinary
  · simp only [Connection.execute] at done
    split at done
    · cases done
    · cases done
      exact ⟨has.committed, fun _ same => Option.some.inj same ▸ has.committed⟩
  · simp only [Connection.execute] at done
    split at done
    · rename_i db open?
      cases done
      exact outside (has.working db open?)
    · cases done
  · simp only [Connection.execute] at done
    split at done
    · cases done
      exact has.closed
    · cases done
  · obtain ⟨db, ran, rfl⟩ := Connection.of_execute_ok ordinary done
    exact has.withContent (step _ db has.content ran)

end Connection.Has

/-- The tables that an item of a batch names. One that is not understood changes nothing, whatever
it names. -/
def BatchItem.tables : BatchItem → List String
  | .statement issued => issued.tables
  | .broken .. | .unread _ => []

/-- The tables that the statements of a text name. -/
def Batch.tables (text : String) : List String :=
  (Batch.read text).flatMap BatchItem.tables

namespace Session

variable {ε : Type} {Q : Database → Prop}

theorem item_keeps {entry : BatchItem}
    (step : ∀ statement, entry = .statement statement →
      ∀ before after, Q before → before.execute statement = .ok after → Q after) :
    Keeps (Connection.Has Q) (item entry) := by
  cases entry with
  | statement statement =>
      exact keeps_issue fun before after has done => has.execute (step statement rfl) done
  | broken begun fault => exact keeps_current.bind fun _ => keeps_throw _
  | unread fault => exact keeps_throw fault

/-- What every statement of a text keeps of a content, its run keeps of the committed content and of
the content inside an open transaction, whatever transactions it begins and ends. -/
theorem batch_keeps {items : List BatchItem}
    (step : ∀ statement, .statement statement ∈ items →
      ∀ before after, Q before → before.execute statement = .ok after → Q after) :
    Keeps (Connection.Has Q) (batch items) :=
  Keeps.forM fun _ member => item_keeps fun statement same => step statement (same ▸ member)

theorem transaction_keeps {onBegin onCommit : Fault → ε} {program : Session ε Unit}
    (keeps : Keeps (Connection.Has Q) program) :
    Keeps (Connection.Has Q) (transaction onBegin onCommit program) := by
  have control : ∀ {statement : Statement}, statement.isTransactionControl = true →
      ∀ before after : Database, Q before → before.execute statement = .ok after → Q after := by
    intro statement isControl before after holds done
    cases (before.execute_of_control isControl).symm.trans done
    exact holds
  have issued : ∀ {statement : Statement} (f : Fault → ε), statement.isTransactionControl = true →
      Keeps (Connection.Has Q) (mapError f (issue statement)) := fun f isControl =>
    Keeps.mapError f (keeps_issue fun before after has done => has.execute (control isControl) done)
  unfold transaction
  refine (issued onBegin rfl).bind fun _ => Keeps.tryCatch ?_ fun e => ?_
  · exact keeps.bind fun _ => issued onCommit rfl
  · exact (keeps_abandon fun _ has => has.closed).bind fun _ => keeps_throw e

/-! ## What leaves no transaction open -/

/-- Started outside a transaction, a program ends outside one. -/
def Closes {α : Type} (program : Session ε α) : Prop :=
  ∀ db, (program ⟨db, none⟩).connection.working = none

namespace Closes

variable {ε' α β : Type}

theorem pure (value : α) : Closes (Pure.pure value : Session ε α) :=
  fun _ => rfl

theorem throw (e : ε) : Closes (MonadExcept.throw e : Session ε α) :=
  fun _ => rfl

theorem mapError {program : Session ε α} (f : ε → ε') (closes : Closes program) :
    Closes (Session.mapError f program) :=
  closes

theorem bind {first : Session ε α} {next : α → Session ε β} (left : Closes first)
    (right : ∀ value, Closes (next value)) : Closes (first >>= next) := by
  intro db
  have middle := left db
  cases run : first ⟨db, none⟩ with
  | mk result stop trail =>
      rw [run] at middle
      cases result with
      | error e =>
          rw [bind_of_error run]
          exact middle
      | ok value =>
          rw [bind_of_ok run]
          obtain ⟨committed, working⟩ := stop
          cases middle
          exact right value committed

theorem forM {items : List β} {program : β → Session ε PUnit}
    (each : ∀ item ∈ items, Closes (program item)) : Closes (items.forM program) := by
  induction items with
  | nil => exact pure _
  | cons item rest ih =>
      exact (each item List.mem_cons_self).bind fun _ =>
        ih fun other member => each other (List.mem_cons_of_mem _ member)

/-- A statement that is no transaction control begins none. -/
theorem issue {statement : Statement} (ordinary : statement.isTransactionControl = false) :
    Closes (Session.issue statement) := by
  intro db
  unfold Session.issue
  split
  · next after done =>
      obtain ⟨changed, _, rfl⟩ := Connection.of_execute_ok ordinary done
      rfl
  · rfl

theorem transaction {onBegin onCommit : Fault → ε} (program : Session ε Unit) :
    Closes (Session.transaction onBegin onCommit program) :=
  transaction_closed program

end Closes

end Session

end SchemaMigration.Sql
