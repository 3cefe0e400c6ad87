import SchemaMigration.Proofs.Migrator.Step
import SchemaMigration.Proofs.Store.Replacement
import SchemaMigration.Proofs.Store.Wrapping

/-!
# Operations in the two modes

Whether bodies get a transaction of their own is seen only where a body heeds transactions or fails:
it begins or ends them itself, or holds a statement that does inside one what it does not do
outside, as `VACUUM` does, which is refused there. So two runs of an operation, one in each mode, go
side by side: `Migrator.Agree` relates what they end with.

* `Migrator.Agree.bind`: two sequences agree if their parts do;
* `Migrator.applyStep_agree`, `Migrator.run_agree`: so do the steps of a plan, and then the plan, if
  their bodies heed no transactions;
* `Migrator.perform_modes`: so does an operation.
-/

namespace SchemaMigration.Migrator

open Sql (Session Connection Database Outcome)

/-- The migrator with bodies in a transaction of their own, or without one. -/
def inMode (migrator : Migrator) (unwrapped : Bool) : Migrator :=
  { migrator with options := migrator.options.inMode unwrapped }

/-- A result that says that a body has failed. -/
def BodyFailed (result : Except Error Unit) : Prop :=
  ∃ version direction cause, result = .error (.stepFailed version direction cause)

/-- Two outcomes with the same result, and unless that is the failure of a body with the same
connection. -/
structure Agree (left right : Outcome Error Unit) : Prop where
  result : left.result = right.result
  connection : ¬ BodyFailed left.result → left.connection = right.connection

theorem Agree.refl (outcome : Outcome Error Unit) : Agree outcome outcome :=
  ⟨rfl, fun _ => rfl⟩

/-- Two sequences agree if their first parts do, and what follows does where these succeed. -/
theorem Agree.bind {left right leftNext rightNext : Session Error Unit} {start : Connection}
    (first : Agree (left start) (right start))
    (next : ∀ middle trail, left start = ⟨.ok (), middle, trail⟩ →
      Agree (leftNext middle) (rightNext middle)) :
    Agree ((left >>= fun _ => leftNext) start) ((right >>= fun _ => rightNext) start) := by
  obtain ⟨result, connection⟩ := first
  cases leftRan : left start with
  | mk leftResult middle leftTrail =>
      cases rightRan : right start with
      | mk rightResult middle' rightTrail =>
          rw [leftRan, rightRan] at result connection
          cases result
          cases leftResult with
          | error e =>
              rw [Session.bind_of_error leftRan, Session.bind_of_error rightRan]
              exact ⟨rfl, connection⟩
          | ok _ =>
              have same : middle = middle' := connection fun ⟨_, _, _, failed⟩ => nomatch failed
              subst same
              rw [Session.bind_of_ok leftRan, Session.bind_of_ok rightRan]
              exact ⟨(next middle _ leftRan).result, (next middle _ leftRan).connection⟩

variable {migrator : Migrator} {tree : FileTree}

/-! ## The steps of a plan -/

/-- If the step has a body, that heeds no transactions. -/
def PlainStep (migrator : Migrator) (tree : FileTree) (step : Step) : Prop :=
  ∀ body, migrator.source.body? tree step.version step.direction = .ok (some body) →
    Sql.Batch.IsPlain (Sql.Batch.read body)

/-- A body ends alike in both modes, and if it fails the step is told to have failed. -/
theorem body_agree {options : StoreOptions} {body : String} {version : Version}
    {direction : Direction} (plain : Sql.Batch.IsPlain (Sql.Batch.read body)) (db : Database) :
    Agree
      (Session.mapError (.stepFailed version direction)
        ((options.inMode false).run body) ⟨db, none⟩)
      (Session.mapError (.stepFailed version direction)
        ((options.inMode true).run body) ⟨db, none⟩) := by
  obtain ⟨same, after, _, unwrapped, wrapped, _⟩ := StoreOptions.run_modes options plain db
  refine ⟨congrArg (Except.mapError _) same, fun well => ?_⟩
  rw [Session.mapError_apply] at well
  rw [Session.mapError_apply, Session.mapError_apply]
  cases result : ((options.inMode false).run body ⟨db, none⟩).result with
  | error cause =>
      rw [result] at well
      exact absurd ⟨version, direction, cause, rfl⟩ well
  | ok _ => exact (wrapped result).trans unwrapped.symm

theorem applyStep_agree {step : Step} (plain : migrator.PlainStep tree step) (start : Connection) :
    Agree ((migrator.inMode false).applyStep tree step start)
      ((migrator.inMode true).applyStep tree step start) := by
  cases read : migrator.source.body? tree step.version step.direction with
  | error e =>
      have unreadable : ∀ unwrapped, (migrator.inMode unwrapped).applyStep tree step start =
          ⟨.error e, start, []⟩ := fun _ => applyStep_of_unreadable read
      rw [unreadable, unreadable]
      exact .refl _
  | ok body? =>
      cases body? with
      | none =>
          have recorded : ∀ unwrapped, (migrator.inMode unwrapped).applyStep tree step start =
              migrator.options.record step.target false start := fun _ => applyStep_of_no_body read
          rw [recorded, recorded]
          exact .refl _
      | some body =>
          have parts : ∀ unwrapped, (migrator.inMode unwrapped).applyStep tree step start =
              (migrator.options.record step.target true >>= fun _ =>
                Session.mapError (.stepFailed step.version step.direction)
                  ((migrator.options.inMode unwrapped).run body) >>= fun _ =>
                    migrator.options.record step.target false) start :=
            fun _ => applyStep_of_body read
          rw [parts, parts]
          refine Agree.bind (.refl _) fun middle trail marked => ?_
          -- The body starts outside a transaction, since the mark was committed.
          rcases StoreOptions.record_cases migrator.options step.target true start with
            ⟨_, _, refused, _⟩ | ⟨after, _, done, _, _⟩
          · cases refused.symm.trans marked
          · cases done.symm.trans marked
            exact Agree.bind (body_agree (plain body read) after) fun _ _ _ => .refl _

/-- A step that succeeds leaves no transaction open, since it ends by recording its target. -/
theorem applyStep_closed {step : Step} {start stop : Connection} {trail : List Connection}
    (done : migrator.applyStep tree step start = ⟨.ok (), stop, trail⟩) :
    ∃ after, stop = ⟨after, none⟩ := by
  have last : ∀ {middle : Connection},
      (migrator.options.record step.target false middle).result = .ok () →
      ∃ after, (migrator.options.record step.target false middle).connection = ⟨after, none⟩ := by
    intro middle recorded
    rcases StoreOptions.record_cases migrator.options step.target false middle with
      ⟨_, _, refused, _⟩ | ⟨after, _, ran, _, _⟩
    · rw [refused] at recorded
      cases recorded
    · exact ⟨after, by rw [ran]⟩
  have succeeds : (migrator.applyStep tree step start).result = .ok () := by rw [done]
  have stops : stop = (migrator.applyStep tree step start).connection := by rw [done]
  rw [stops]
  cases read : migrator.source.body? tree step.version step.direction with
  | error e =>
      rw [applyStep_of_unreadable read] at succeeds
      cases succeeds
  | ok body? =>
      cases body? with
      | none =>
          rw [applyStep_of_no_body read] at succeeds ⊢
          exact last succeeds
      | some body =>
          rw [applyStep_of_body read] at succeeds ⊢
          obtain ⟨_, _, later, first⟩ := Session.of_bind_ok succeeds
          obtain ⟨_, _, recorded, second⟩ := Session.of_bind_ok later
          rw [first, second]
          exact last recorded

theorem run_agree {plan : List Step} (plain : ∀ step ∈ plan, migrator.PlainStep tree step)
    (db : Database) :
    Agree (plan.forM ((migrator.inMode false).applyStep tree) ⟨db, none⟩)
      (plan.forM ((migrator.inMode true).applyStep tree) ⟨db, none⟩) := by
  induction plan generalizing db with
  | nil => exact .refl _
  | cons step rest ih =>
      rw [Session.forM_cons_apply, Session.forM_cons_apply]
      refine Agree.bind (applyStep_agree (plain step List.mem_cons_self) _) fun middle _ done => ?_
      obtain ⟨after, rfl⟩ := applyStep_closed done
      exact ih (fun other member => plain other (List.mem_cons_of_mem _ member)) after

/-! ## Operations -/

/-- What is said after a plan depends on its result only. -/
theorem Agree.finish {left right : Outcome Error Unit} (agree : Agree left right)
    (operation : Operation) (planned : Nat) :
    Agree (operation.finish planned left) (operation.finish planned right) := by
  obtain ⟨result, connection⟩ := agree
  refine ⟨congrArg (· >>= fun _ => operation.verdict planned) result, fun well => ?_⟩
  refine connection fun ⟨version, direction, cause, failed⟩ => well ?_
  exact ⟨version, direction, cause, congrArg (· >>= fun _ => operation.verdict planned) failed⟩

theorem perform_agree {operation : Operation} {db : Database}
    (plain : ∀ step ∈ migrator.plannedSteps operation db, migrator.PlainStep tree step) :
    Agree ((migrator.inMode false).perform tree operation ⟨db, none⟩)
      ((migrator.inMode true).perform tree operation ⟨db, none⟩) := by
  have same : ∀ unwrapped, (migrator.inMode unwrapped).planned operation
      (Connection.content ⟨db, none⟩) = migrator.planned operation db := fun _ => rfl
  rw [perform_eq, perform_eq, same, same]
  unfold plannedSteps at plain
  cases planned : migrator.planned operation db with
  | error e => exact .refl _
  | ok plan =>
      rw [planned] at plain
      exact (run_agree plain db).finish operation plan.length

/-- **The two modes agree.** A body that begins and ends no transaction and holds no other statement
that may do inside one what it does not do outside, and that starts outside a transaction, ends with
the same result in both modes. If it succeeds both leave the same content and no open transaction;
if it fails, it leaves in a transaction of its own the content as it was, and without one what the
statements before the one that failed make of it. An operation whose planned steps have such bodies
ends with the same result in both modes too, and at the same connection unless a body of it
fails. -/
theorem perform_modes (migrator : Migrator) :
    (∀ body db, Sql.Batch.IsPlain (Sql.Batch.read body) →
      let wrapped := (migrator.options.inMode false).run body ⟨db, none⟩
      let unwrapped := (migrator.options.inMode true).run body ⟨db, none⟩
      wrapped.result = unwrapped.result ∧
      ∃ after,
        db.executeAll (Sql.Batch.executed (Sql.Batch.read body) ⟨db, none⟩) = .ok after ∧
        unwrapped.connection = ⟨after, none⟩ ∧
        (wrapped.result = .ok () → wrapped.connection = ⟨after, none⟩) ∧
        ∀ e, wrapped.result = .error e → wrapped.connection = ⟨db, none⟩) ∧
    ∀ tree operation db,
      (∀ step ∈ migrator.plannedSteps operation db, migrator.PlainStep tree step) →
      let wrapped := (migrator.inMode false).perform tree operation ⟨db, none⟩
      let unwrapped := (migrator.inMode true).perform tree operation ⟨db, none⟩
      wrapped.result = unwrapped.result ∧
        (¬ BodyFailed wrapped.result → wrapped.connection = unwrapped.connection) := by
  constructor
  · intro body db plain
    exact StoreOptions.run_modes migrator.options plain db
  · intro tree operation db plain
    have agree := perform_agree plain
    exact ⟨agree.result, agree.connection⟩

/-- A body that fails in its second statement does so in both modes, and undoes the first in a
transaction of its own. Five steps up the sample directory are three too many in both, and leave the
same. -/
theorem perform_modes_sample :
    let body := "CREATE TABLE a (x INTEGER); INSERT INTO b VALUES (1);"
    let wrapped := (StoreOptions.inMode {} false).run body ⟨{}, none⟩
    let unwrapped := (StoreOptions.inMode {} true).run body ⟨{}, none⟩
    wrapped.result = .error (.bodyFailed (.noSuchTable "b")) ∧ wrapped.result = unwrapped.result ∧
    wrapped.connection = ⟨{}, none⟩ ∧ unwrapped.connection ≠ wrapped.connection ∧
    let inside := (sampleMigrator.inMode false).perform sampleTree (.steps 5) ⟨sampleContent, none⟩
    let outside := (sampleMigrator.inMode true).perform sampleTree (.steps 5) ⟨sampleContent, none⟩
    inside.result = .error (.shortLimit 3) ∧ inside.result = outside.result ∧
    inside.connection = outside.connection := by
  intro body wrapped unwrapped
  obtain ⟨runs, performs⟩ := perform_modes sampleMigrator
  have failed : wrapped.result = .error (.bodyFailed (.noSuchTable "b")) := by decide +kernel
  obtain ⟨same, _, _, _, _, undone⟩ := runs body {} (by decide +kernel)
  have differ : unwrapped.connection ≠ wrapped.connection := by decide +kernel
  have planned : sampleMigrator.plannedSteps (.steps 5) sampleContent =
      [Source.upStep 1, Source.upStep 2] := by
    decide +kernel
  have firstBody : sampleMigrator.source.body? sampleTree 1 .up =
      .ok (some "CREATE TABLE a (x INTEGER);") := by
    decide +kernel
  have secondBody : sampleMigrator.source.body? sampleTree 2 .up =
      .ok (some "CREATE TABLE b (y TEXT);") := by
    decide +kernel
  have plain : ∀ step ∈ sampleMigrator.plannedSteps (.steps 5) sampleContent,
      sampleMigrator.PlainStep sampleTree step := by
    intro step member text read
    rw [planned] at member
    rcases List.mem_pair.mp member with rfl | rfl
    · cases firstBody.symm.trans read
      decide +kernel
    · cases secondBody.symm.trans read
      decide +kernel
  obtain ⟨told, left⟩ := performs sampleTree (.steps 5) sampleContent plain
  have short : ((sampleMigrator.inMode false).perform sampleTree (.steps 5)
      ⟨sampleContent, none⟩).result = .error (.shortLimit 3) := by
    decide +kernel
  refine ⟨failed, same, undone _ failed, differ, short, told, left fun ⟨_, _, _, other⟩ => ?_⟩
  cases short.symm.trans other

/-- A body that packs the database anew begins and ends no transaction. It succeeds without a
transaction of its own, and in one it is refused. -/
theorem perform_modes_vacuum :
    let body := "VACUUM;"
    let wrapped := (StoreOptions.inMode {} false).run body ⟨sampleContent, none⟩
    let unwrapped := (StoreOptions.inMode {} true).run body ⟨sampleContent, none⟩
    Sql.Batch.read body = [.statement .vacuum] ∧
    Sql.Statement.vacuum.isTransactionControl = false ∧
    wrapped.result = .error (.bodyFailed .vacuumInside) ∧ unwrapped.result = .ok () := by
  decide +kernel

end SchemaMigration.Migrator
