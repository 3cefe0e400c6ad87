import SchemaMigration.Proofs.Sql.Session

/-!
# What becomes of the statements of a batch

A batch carries out its statements up to the first item that fails: `Batch.executed`. A `Ledger`
sorts them by what becomes of them: a commit settles what is pending in the open transaction, a
rollback strikes it out, and outside a transaction a statement is settled at once.

* `Ledger.Balances.execute`: a statement that is carried out and entered keeps a connection in
  balance with its ledger;
* `Batch.balances`: so does a batch, so what is committed is what the settled statements make of the
  content from before the batch;
* `Batch.result_eq_ok_iff`: a batch succeeds exactly if it carries out all its items;
* `Batch.alike_inside`: a batch that heeds no transaction does the same inside one as outside;
* `Ledger.Balances.transaction`: a transaction around a program commits what is settled or pending
  at its end, or only what is settled. -/

namespace SchemaMigration.Sql

/-! ## Statements that are carried out -/

/-- What statements make of a content one after the other. -/
def Database.executeAll (db : Database) (statements : List Statement) : Except Fault Database :=
  statements.foldlM Database.execute db

/-- The statements of a batch that are carried out: those before the first item that fails. -/
def Batch.executed : List BatchItem → Connection → List Statement
  | .statement statement :: rest, start =>
    match start.execute statement with
    | .ok after => statement :: executed rest after
    | .error _ => []
  | _, _ => []

namespace Database

variable {db middle after : Database} {statements more : List Statement} {statement : Statement}

theorem executeAll_cons (first : db.execute statement = .ok middle) :
    db.executeAll (statement :: statements) = middle.executeAll statements := by
  unfold executeAll
  rw [List.foldlM_cons, first]
  rfl

theorem executeAll_append (first : db.executeAll statements = .ok middle)
    (second : middle.executeAll more = .ok after) :
    db.executeAll (statements ++ more) = .ok after := by
  unfold executeAll at *
  rw [List.foldlM_append, first]
  exact second

theorem executeAll_concat (first : db.executeAll statements = .ok middle)
    (last : middle.execute statement = .ok after) :
    db.executeAll (statements ++ [statement]) = .ok after :=
  executeAll_append first (executeAll_cons last)

end Database

namespace Session

variable {start after : Connection} {statement : Statement} {rest : List BatchItem}

theorem batch_cons_of_ok (done : start.execute statement = .ok after) :
    batch (.statement statement :: rest) start =
      { batch rest after with trail := after :: (batch rest after).trail } :=
  bind_of_ok (issue_of_ok done)

theorem batch_cons_of_error {fault : Fault} (failed : start.execute statement = .error fault) :
    batch (.statement statement :: rest) start = ⟨.error fault, start, [start]⟩ :=
  bind_of_error (issue_of_error failed)

end Session

theorem Batch.executed_cons_of_ok {start after : Connection} {statement : Statement}
    {rest : List BatchItem} (done : start.execute statement = .ok after) :
    Batch.executed (.statement statement :: rest) start =
      statement :: Batch.executed rest after := by
  simp only [Batch.executed, done]

theorem Batch.executed_cons_of_error {start : Connection} {statement : Statement}
    {rest : List BatchItem} {fault : Fault} (failed : start.execute statement = .error fault) :
    Batch.executed (.statement statement :: rest) start = [] := by
  simp only [Batch.executed, failed]

/-! ## Ledgers -/

/-- Statements that were carried out, by what becomes of them: those that are settled, and those of
the open transaction, if there is one. -/
structure Ledger where
  settled : List Statement := []
  pending : Option (List Statement) := none
  deriving DecidableEq, Repr

namespace Ledger

/-- Enters a statement that was carried out. -/
def enter (ledger : Ledger) : Statement → Ledger
  | .begin => { ledger with pending := some [] }
  | .commit => ⟨ledger.settled ++ ledger.pending.getD [], none⟩
  | .rollback => { ledger with pending := none }
  | statement =>
    match ledger.pending with
    | some pending => { ledger with pending := some (pending ++ [statement]) }
    | none => { ledger with settled := ledger.settled ++ [statement] }

/-- Enters statements one after the other. -/
def enterAll (ledger : Ledger) (statements : List Statement) : Ledger :=
  statements.foldl enter ledger

/-- The ledger of statements that are carried out in a transaction begun for them. -/
def within (statements : List Statement) : Ledger :=
  enterAll ⟨[], some []⟩ statements

/-- A connection holds what its ledger says: the settled statements have made the committed content
of the first one, and the pending ones have made from there what the open transaction sees. -/
inductive Balances (db : Database) : Ledger → Connection → Prop
  | closed {settled : List Statement} {committed : Database}
      (done : db.executeAll settled = .ok committed) :
      Balances db ⟨settled, none⟩ ⟨committed, none⟩
  | opened {settled pending : List Statement} {committed content : Database}
      (done : db.executeAll settled = .ok committed)
      (inside : committed.executeAll pending = .ok content) :
      Balances db ⟨settled, some pending⟩ ⟨committed, some content⟩

variable {db : Database} {ledger : Ledger} {start after : Connection} {statement : Statement}

theorem enter_of_ordinary (ordinary : statement.isTransactionControl = false) :
    ledger.enter statement =
      match ledger.pending with
      | some pending => { ledger with pending := some (pending ++ [statement]) }
      | none => { ledger with settled := ledger.settled ++ [statement] } := by
  cases statement with
  | begin | commit | rollback => cases ordinary
  | createTable | dropTable | createIndex | dropIndex | alterTable | insert | update | delete
  | select | values | vacuum => rfl

/-- **One entry.** Whatever a statement does to the open transaction, its entry follows. -/
theorem Balances.execute (balances : Balances db ledger start)
    (done : start.execute statement = .ok after) : Balances db (ledger.enter statement) after := by
  rcases statement.control_cases with rfl | rfl | rfl | ordinary
  · cases balances with
    | closed settled =>
        cases done
        exact .opened settled rfl
    | opened => cases done
  · cases balances with
    | closed => cases done
    | opened settled inside =>
        cases done
        exact .closed (Database.executeAll_append settled inside)
  · cases balances with
    | closed => cases done
    | opened settled inside =>
        cases done
        exact .closed settled
  · obtain ⟨content, executed, rfl⟩ := Connection.of_execute_ok ordinary done
    rw [enter_of_ordinary ordinary]
    cases balances with
    | closed settled => exact .closed (Database.executeAll_concat settled executed)
    | opened settled inside =>
        exact .opened settled (Database.executeAll_concat inside executed)

end Ledger

/-! ## Batches -/

namespace Batch

variable {db : Database} {ledger : Ledger}

/-- **What a batch leaves.** Its connection is in balance with the ledger in which the statements
that it carried out are entered. -/
theorem balances (items : List BatchItem) {start : Connection}
    (before : Ledger.Balances db ledger start) :
    Ledger.Balances db (ledger.enterAll (executed items start))
      (Session.batch items start).connection := by
  induction items generalizing ledger start with
  | nil => exact before
  | cons item rest ih =>
      cases item with
      | broken | unread => exact before
      | statement statement =>
          cases ran : start.execute statement with
          | error fault =>
              rw [executed_cons_of_error ran, Session.batch_cons_of_error ran]
              exact before
          | ok after =>
              rw [executed_cons_of_ok ran, Session.batch_cons_of_ok ran]
              exact ih (before.execute ran)

/-- A batch succeeds exactly if it carries out all its items. -/
theorem result_eq_ok_iff (items : List BatchItem) (start : Connection) :
    (Session.batch items start).result = .ok () ↔
      items = (executed items start).map .statement := by
  induction items generalizing start with
  | nil => exact ⟨fun _ => rfl, fun _ => rfl⟩
  | cons item rest ih =>
      cases item with
      | broken | unread =>
          constructor
          · intro done
            cases done
          · intro same
            cases same
      | statement statement =>
          cases ran : start.execute statement with
          | error fault =>
              rw [executed_cons_of_error ran, Session.batch_cons_of_error ran]
              constructor
              · intro done
                cases done
              · intro same
                cases same
          | ok after =>
              rw [executed_cons_of_ok ran, Session.batch_cons_of_ok ran, List.map_cons,
                List.cons_inj_right]
              exact ih after

/-! ## Batches that heed no transaction -/

/-- Whether what an item of a batch does may depend on an open transaction. A broken one does
nothing. -/
def heedsTransaction : BatchItem → Bool
  | .statement statement => statement.heedsTransaction
  | .broken .. => false
  | .unread _ => true

/-- A batch without statements that begin or end a transaction, and without such as may do inside an
open one what they do not do outside. -/
def IsPlain (items : List BatchItem) : Prop :=
  ∀ item ∈ items, heedsTransaction item = false

instance (items : List BatchItem) : Decidable (IsPlain items) :=
  inferInstanceAs (Decidable (∀ item ∈ items, heedsTransaction item = false))

theorem IsPlain.rest {item : BatchItem} {rest : List BatchItem} (plain : IsPlain (item :: rest)) :
    IsPlain rest :=
  fun other member => plain other (List.mem_cons_of_mem _ member)

/-- **Inside a transaction as outside.** A batch that heeds no transaction ends alike inside an open
one and outside, and leaves there what the statements it carries out make of the content. -/
theorem alike_inside {items : List BatchItem} (plain : IsPlain items) (db content : Database) :
    (Session.batch items ⟨db, some content⟩).result =
        (Session.batch items ⟨content, none⟩).result ∧
      ∃ after, content.executeAll (executed items ⟨content, none⟩) = .ok after ∧
        (Session.batch items ⟨db, some content⟩).connection = ⟨db, some after⟩ ∧
        (Session.batch items ⟨content, none⟩).connection = ⟨after, none⟩ := by
  induction items generalizing content with
  | nil => exact ⟨rfl, content, rfl, rfl, rfl⟩
  | cons item rest ih =>
      cases item with
      | broken begun fault =>
          exact ⟨rfl, content, rfl, rfl, rfl⟩
      | unread fault => cases plain _ List.mem_cons_self
      | statement statement =>
          have ordinary : statement.heedsTransaction = false := plain _ List.mem_cons_self
          have inside := Connection.execute_eq ⟨db, some content⟩ ordinary
          have outside := Connection.execute_eq ⟨content, none⟩ ordinary
          cases ran : content.execute statement with
          | error fault =>
              rw [show Connection.content _ = content from rfl, ran] at inside outside
              rw [executed_cons_of_error outside, Session.batch_cons_of_error inside,
                Session.batch_cons_of_error outside]
              exact ⟨rfl, content, rfl, rfl, rfl⟩
          | ok middle =>
              rw [show Connection.content _ = content from rfl, ran] at inside outside
              rw [executed_cons_of_ok outside, Session.batch_cons_of_ok inside,
                Session.batch_cons_of_ok outside, Database.executeAll_cons ran]
              exact ih plain.rest middle

end Batch

/-! ## Transactions around programs -/

/-- **What a transaction leaves.** Whatever transactions the program in it begins and ends, it
succeeds exactly if the program does and leaves one open. Then what is settled or pending at the end
of the program is committed, and otherwise what is settled. -/
theorem Ledger.Balances.transaction {ε : Type} {program : Session ε Unit} {db : Database}
    {ledger : Ledger} (balances : Balances db ledger (program ⟨db, some db⟩).connection)
    (onBegin onCommit : Fault → ε) :
    let outcome := Session.transaction onBegin onCommit program ⟨db, none⟩
    (outcome.result = .ok () ↔
      (program ⟨db, some db⟩).result = .ok () ∧ ledger.pending.isSome) ∧
    (outcome.result = .ok () →
      db.executeAll (ledger.settled ++ ledger.pending.getD []) =
        .ok outcome.connection.committed) ∧
    ∀ e, outcome.result = .error e →
      db.executeAll ledger.settled = .ok outcome.connection.committed := by
  cases ran : program ⟨db, some db⟩ with
  | mk result stop trail =>
      rw [ran] at balances
      cases balances with
      | closed settled =>
          cases result with
          | error e =>
              rw [Session.transaction_of_error_closed ran]
              simp [settled]
          | ok _ =>
              rw [Session.transaction_of_ok_closed ran]
              simp [settled]
      | opened settled inside =>
          cases result with
          | error e =>
              rw [Session.transaction_of_error ran]
              simp [settled]
          | ok _ =>
              rw [Session.transaction_of_ok ran]
              simp [Database.executeAll_append settled inside]

end SchemaMigration.Sql
