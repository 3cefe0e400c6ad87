import SchemaMigration.Proofs.Sql.Ledger
import SchemaMigration.Proofs.Store.Body

/-!
# Bodies in a transaction of their own

A body runs in a transaction of its own or without one. In its own it may still close that
transaction, and begin others, so what becomes of its statements is told by their ledger.

* `StoreOptions.run_settles`: a wrapped body leaves no transaction open, and what its ledger says is
  settled, whatever transactions it begins and ends;
* `StoreOptions.run_modes`: a body that heeds no transaction ends alike in both modes, and what it
  leaves differs only if it fails.
-/

namespace SchemaMigration.StoreOptions

open Sql (Session Connection Database Statement Ledger)

variable {options : StoreOptions} {body : String}

/-! ## What a wrapped body leaves -/

/-- **What a wrapped body leaves.** Take the statements of the body that are carried out, up to the
first that fails, in the ledger of a transaction begun for them. No transaction is open at the end.
The body succeeds exactly if all of it is carried out and a transaction is open by then, and then
what is settled or pending is committed. If it fails, what is settled is committed: what it
committed itself, or did after closing the transaction. So one that closes none leaves the content
as it was. -/
theorem run_settles (wrapped : options.unwrapped = false) (body : String) (db : Database) :
    let items := Sql.Batch.read body
    let executed := Sql.Batch.executed items ⟨db, some db⟩
    let ledger := Ledger.within executed
    let outcome := options.run body ⟨db, none⟩
    outcome.connection.working = none ∧
    (outcome.result = .ok () ↔
      items = executed.map .statement ∧ ledger.pending.isSome) ∧
    (outcome.result = .ok () →
      db.executeAll (ledger.settled ++ ledger.pending.getD []) =
        .ok outcome.connection.committed) ∧
    (∀ e, outcome.result = .error e →
      db.executeAll ledger.settled = .ok outcome.connection.committed) ∧
    ∀ e, outcome.result = .error e → ClosesNothing body → outcome.connection = ⟨db, none⟩ := by
  intro items executed ledger outcome
  have balanced : Ledger.Balances db ledger
      (Session.mapError Error.bodyFailed (Session.batch items) ⟨db, some db⟩).connection :=
    Sql.Batch.balances items (.opened rfl rfl)
  obtain ⟨ok_iff, ofOk, ofError⟩ :=
    balanced.transaction Error.transactionRefused Error.bodyNotCommitted
  have ran : outcome = Session.transaction .transactionRefused .bodyNotCommitted
      (Session.mapError Error.bodyFailed (Session.batch items)) ⟨db, none⟩ :=
    congrFun (run_of_wrapped wrapped body) _
  have succeeds : (Session.mapError Error.bodyFailed (Session.batch items)
      ⟨db, some db⟩).result = .ok () ↔ items = executed.map .statement :=
    Session.mapError_result_eq_ok_iff.trans (Sql.Batch.result_eq_ok_iff items _)
  rw [← ran] at ok_iff ofOk ofError
  refine ⟨run_closed wrapped body db, ?_, ofOk, ofError, ?_⟩
  · rw [ok_iff, succeeds]
  · exact fun e failed closesNothing => run_undone wrapped closesNothing failed

/-- A body that commits, goes on without a transaction, rolls back one that it began, and fails in
another. -/
def mixedBody : String :=
  "CREATE TABLE a (x INTEGER); COMMIT; CREATE TABLE b (x INTEGER); BEGIN; DROP TABLE a;" ++
    " ROLLBACK; BEGIN; CREATE TABLE c (x INTEGER); INSERT INTO d VALUES (1);"

/-- What it settled by then are its first two tables. -/
theorem run_settles_sample :
    let outcome := StoreOptions.run {} mixedBody ⟨{}, none⟩
    outcome.result = .error (.bodyFailed (.noSuchTable "d")) ∧
    outcome.connection.committed.tables.map (·.name) = ["a", "b"] ∧
    Database.executeAll {} (Ledger.within
        (Sql.Batch.executed (Sql.Batch.read mixedBody) ⟨{}, some {}⟩)).settled =
      .ok outcome.connection.committed := by
  intro outcome
  have failed : outcome.result = .error (.bodyFailed (.noSuchTable "d")) := by decide +kernel
  have tables : outcome.connection.committed.tables.map (·.name) = ["a", "b"] := by
    decide +kernel
  exact ⟨failed, tables, (run_settles rfl mixedBody {}).2.2.2.1 _ failed⟩

/-! ## The two modes -/

/-- The options with bodies in a transaction of their own, or without one. -/
def inMode (options : StoreOptions) (unwrapped : Bool) : StoreOptions :=
  { options with unwrapped }

theorem run_of_unwrapped (unwrapped : options.unwrapped = true) (body : String) :
    options.run body =
      Session.mapError Error.bodyFailed (Session.batch (Sql.Batch.read body)) := by
  unfold run
  rw [if_pos unwrapped]

/-- **Two modes.** A body that heeds no transaction ends alike in both modes. Without a transaction
it leaves what the statements before the first that fails make of the content. In a transaction of
its own it leaves the same if it succeeds, and the content as it was if it fails. -/
theorem run_modes (options : StoreOptions) (plain : Sql.Batch.IsPlain (Sql.Batch.read body))
    (db : Database) :
    let wrapped := (options.inMode false).run body ⟨db, none⟩
    let unwrapped := (options.inMode true).run body ⟨db, none⟩
    wrapped.result = unwrapped.result ∧
    ∃ after,
      db.executeAll (Sql.Batch.executed (Sql.Batch.read body) ⟨db, none⟩) = .ok after ∧
      unwrapped.connection = ⟨after, none⟩ ∧
      (wrapped.result = .ok () → wrapped.connection = ⟨after, none⟩) ∧
      ∀ e, wrapped.result = .error e → wrapped.connection = ⟨db, none⟩ := by
  intro wrapped unwrapped
  obtain ⟨same, after, made, inside, outside⟩ := Sql.Batch.alike_inside plain db db
  have wrappedRan : wrapped = Session.transaction .transactionRefused .bodyNotCommitted
      (Session.mapError Error.bodyFailed (Session.batch (Sql.Batch.read body))) ⟨db, none⟩ :=
    congrFun (run_of_wrapped rfl body) _
  have unwrappedRan : unwrapped =
      Session.mapError Error.bodyFailed (Session.batch (Sql.Batch.read body)) ⟨db, none⟩ :=
    congrFun (run_of_unwrapped rfl body) _
  rw [unwrappedRan, Session.mapError_apply, outside, ← same]
  cases ran : Session.batch (Sql.Batch.read body) ⟨db, some db⟩ with
  | mk result stop trail =>
      rw [ran] at inside
      cases inside
      have told : Session.mapError Error.bodyFailed (Session.batch (Sql.Batch.read body))
          ⟨db, some db⟩ = ⟨result.mapError .bodyFailed, ⟨db, some after⟩, trail⟩ := by
        rw [Session.mapError_apply, ran]
      cases result with
      | error fault =>
          rw [wrappedRan, Session.transaction_of_error told]
          exact ⟨rfl, after, made, rfl, (fun done => nomatch done), fun _ _ => rfl⟩
      | ok _ =>
          rw [wrappedRan, Session.transaction_of_ok told]
          exact ⟨rfl, after, made, rfl, fun _ => rfl, fun _ failed => nomatch failed⟩

end SchemaMigration.StoreOptions
