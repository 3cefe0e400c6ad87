import SchemaMigration.Proofs.Migrator.Cursor
import SchemaMigration.Proofs.Migrator.Refusal
import SchemaMigration.Proofs.Plan.Rounds

/-!
# Plans that fail

A plan is given up at its first step that fails. What the steps before it did stays, and what the
failed one leaves depends on how far it came: `Migrator.FailedStep` tells the five ways apart.

* `Migrator.applyStep_cases`: a step runs its body and records its target, or fails in one of these
  ways;
* `Migrator.run_failed`: a plan that fails has a first step that does, and ends as that one does;
* `Migrator.perform_failed`: so does an operation, whatever it was asked for.
-/

namespace SchemaMigration.Migrator

open Sql (Session Connection Database Outcome)
open StoreOptions (rowsOf)

/-! ## Steps that fail -/

/-- Every content of a connection records the target of a step as dirty. -/
def Dirty (options : StoreOptions) (target : Option Version) (connection : Connection) : Prop :=
  connection.Has (options.stateIn · = .ok ⟨target, true⟩)

/-- How a step that starts on a content without an open transaction can fail. -/
inductive FailedStep (migrator : Migrator) (tree : FileTree) (step : Step) (db : Database) :
    Outcome Error Unit → Prop
  /-- Its file cannot be read, and nothing was done. -/
  | unreadable {e : Error}
      (unread : migrator.source.body? tree step.version step.direction = .error e)
      (kind : e.kind = .source) :
      FailedStep migrator tree step db ⟨.error e, ⟨db, none⟩, []⟩
  /-- The version table does not take the first row of the step, and no body was run. -/
  | unmarked {e : Error} {body? : Option String} {trail : List Connection}
      (read : migrator.source.body? tree step.version step.direction = .ok body?)
      (refused : migrator.options.record step.target body?.isSome ⟨db, none⟩ =
        ⟨.error e, ⟨db, none⟩, trail⟩)
      (kind : e.kind = .database) :
      FailedStep migrator tree step db ⟨.error e, ⟨db, none⟩, trail⟩
  /-- Its body fails. In a transaction of its own, which it does not close, it is undone. -/
  | failed {body : String} {cause : Error} {stop : Connection} {trail : List Connection}
      (read : migrator.source.body? tree step.version step.direction = .ok (some body))
      (ran : migrator.options.run body ⟨migrator.options.recorded step.target true db, none⟩ =
        ⟨.error cause, stop, trail⟩)
      (dirty : Dirty migrator.options step.target stop)
      (undone : migrator.options.unwrapped = false → StoreOptions.ClosesNothing body →
        stop = ⟨migrator.options.recorded step.target true db, none⟩) :
      FailedStep migrator tree step db
        ⟨.error (.stepFailed step.version step.direction cause), stop,
          migrator.options.recording step.target true db ++ trail⟩
  /-- Its body succeeds and leaves a transaction open, in which its end cannot be recorded. -/
  | leftOpen {body : String} {e : Error} {committed content : Database}
      {trail later : List Connection}
      (read : migrator.source.body? tree step.version step.direction = .ok (some body))
      (ran : migrator.options.run body ⟨migrator.options.recorded step.target true db, none⟩ =
        ⟨.ok (), ⟨committed, some content⟩, trail⟩)
      (dirty : Dirty migrator.options step.target ⟨committed, some content⟩)
      (kind : e.kind = .database) :
      FailedStep migrator tree step db ⟨.error e, ⟨committed, some content⟩,
        migrator.options.recording step.target true db ++ trail ++ later⟩
  /-- Its body succeeds, and the version table does not take the row for its end. -/
  | unrecorded {body : String} {e : Error} {after : Database} {trail later : List Connection}
      (read : migrator.source.body? tree step.version step.direction = .ok (some body))
      (ran : migrator.options.run body ⟨migrator.options.recorded step.target true db, none⟩ =
        ⟨.ok (), ⟨after, none⟩, trail⟩)
      (dirty : Dirty migrator.options step.target ⟨after, none⟩)
      (kind : e.kind = .database) :
      FailedStep migrator tree step db ⟨.error e, ⟨after, none⟩,
        migrator.options.recording step.target true db ++ trail ++ later⟩

variable {migrator : Migrator} {tree : FileTree} {db : Database} {e : Error}

theorem record_cases {options : StoreOptions} (table : options.HasTable db)
    (version : Option Version) (dirty : Bool) :
    (∃ e trail, options.record version dirty ⟨db, none⟩ = ⟨.error e, ⟨db, none⟩, trail⟩ ∧
      e.kind = .database) ∨
    options.record version dirty ⟨db, none⟩ =
      ⟨.ok (), ⟨options.recorded version dirty db, none⟩,
        options.recording version dirty db⟩ := by
  have atomic := StoreOptions.record_atomic table version dirty
  generalize run : options.record version dirty ⟨db, none⟩ = outcome at atomic
  cases atomic with
  | @refused e trail _ =>
      exact .inl ⟨e, trail, rfl, options.record_raises version dirty ⟨db, none⟩ e (by rw [run])⟩
  | done _ => exact .inr (run.symm.trans (StoreOptions.record_of_ok table (by rw [run])))

/-- A body that does not name the version table leaves the mark that was set for it. -/
theorem run_keeps_mark {options : StoreOptions} {body : String}
    (apart : ¬ Sql.Mentions (Sql.Batch.tables body) options.table) (table : options.HasTable db)
    (target : Option Version) :
    (options.run body ⟨options.recorded target true db, none⟩).connection.Has
      (options.HasRows · (rowsOf target true)) := by
  have keeps : Session.Keeps (Connection.Has (options.HasRows · (rowsOf target true)))
      (options.run body) :=
    StoreOptions.run_keeps
      (fun _ notNamed => StoreOptions.execute_keeps_rows
        (StoreOptions.numbered_rowsOf target true) notNamed) apart
  have start : Connection.Has (options.HasRows · (rowsOf target true))
      ⟨options.recorded target true db, none⟩ :=
    .outside (table.recorded target true)
  exact (keeps _ start).1

theorem dirty_of_rows {options : StoreOptions} {target : Option Version} {connection : Connection}
    (has : connection.Has (options.HasRows · (rowsOf target true))) :
    Dirty options target connection :=
  ⟨StoreOptions.stateIn_rowsOf has.committed,
    fun db open? => StoreOptions.stateIn_rowsOf (has.working db open?)⟩

/-- What becomes of a step whose target is marked and whose body can be read. -/
theorem applyStep_of_marked {step : Step} {body : String} (apart : migrator.BodiesApart tree)
    (table : migrator.options.HasTable db)
    (read : migrator.source.body? tree step.version step.direction = .ok (some body))
    (marked : migrator.options.record step.target true ⟨db, none⟩ =
      ⟨.ok (), ⟨migrator.options.recorded step.target true db, none⟩,
        migrator.options.recording step.target true db⟩) :
    (∃ final trail, migrator.carriedStep tree step db = some (final, trail) ∧
      migrator.applyStep tree step ⟨db, none⟩ = ⟨.ok (), ⟨final, none⟩, trail⟩ ∧
      migrator.options.HasRows final (rowsOf step.target false)) ∨
    FailedStep migrator tree step db (migrator.applyStep tree step ⟨db, none⟩) := by
  have mark := run_keeps_mark (apart _ _ _ read) table step.target
  generalize ran : migrator.options.run body
    ⟨migrator.options.recorded step.target true db, none⟩ = outcome at mark
  obtain ⟨result, stop, trail⟩ := outcome
  have told : Session.mapError (Error.stepFailed step.version step.direction)
      (migrator.options.run body) ⟨migrator.options.recorded step.target true db, none⟩ =
        ⟨result.mapError (.stepFailed step.version step.direction), stop, trail⟩ := by
    rw [Session.mapError_apply, ran]
  rw [applyStep_of_body read, Session.bind_of_ok marked]
  cases result with
  | error cause =>
      rw [Session.bind_of_error told]
      refine .inr (.failed read ran (dirty_of_rows mark) fun wrapped closesNothing => ?_)
      have undone := StoreOptions.run_undone wrapped closesNothing (by rw [ran])
      rw [ran] at undone
      exact undone
  | ok _ =>
      rw [Session.bind_of_ok told]
      obtain ⟨committed, working⟩ := stop
      cases working with
      | some content =>
          obtain ⟨e, later, refused, _⟩ := StoreOptions.record_within content step.target false
          have kind := migrator.options.record_raises step.target false
            ⟨committed, some content⟩ e (by rw [refused])
          rw [refused, ← List.append_assoc]
          exact .inr (.leftOpen read ran (dirty_of_rows mark) kind)
      | none =>
          have stillTable := hasTable_of_rows mark.committed
          rcases record_cases stillTable step.target false with ⟨e, later, refused, kind⟩ | done
          · rw [refused, ← List.append_assoc]
            exact .inr (.unrecorded read ran (dirty_of_rows mark) kind)
          · unfold carriedStep
            rw [done, ← List.append_assoc, read]
            simp only [ran]
            exact .inl ⟨_, _, rfl, rfl, stillTable.recorded _ _⟩

/-- **How a step ends.** It runs its body, if there is one, and records its target, or it fails in
one of the five ways. -/
theorem applyStep_cases (step : Step) (apart : migrator.BodiesApart tree)
    (table : migrator.options.HasTable db) :
    (∃ final trail, migrator.carriedStep tree step db = some (final, trail) ∧
      migrator.applyStep tree step ⟨db, none⟩ = ⟨.ok (), ⟨final, none⟩, trail⟩ ∧
      migrator.options.HasRows final (rowsOf step.target false)) ∨
    FailedStep migrator tree step db (migrator.applyStep tree step ⟨db, none⟩) := by
  cases read : migrator.source.body? tree step.version step.direction with
  | error cause =>
      rw [applyStep_of_unreadable read]
      exact .inr (.unreadable read (body?_kind read))
  | ok body? =>
      cases body? with
      | none =>
          rw [applyStep_of_no_body read]
          rcases record_cases table step.target false with ⟨e, trail, refused, kind⟩ | done
          · rw [refused]
            exact .inr (.unmarked read refused kind)
          · unfold carriedStep
            rw [done, read]
            exact .inl ⟨_, _, rfl, rfl, table.recorded _ _⟩
      | some body =>
          rcases record_cases table step.target true with ⟨e, trail, refused, kind⟩ | marked
          · rw [applyStep_of_body read, Session.bind_of_error refused]
            exact .inr (.unmarked read refused kind)
          · exact applyStep_of_marked apart table read marked

/-! ## Plans that fail -/

/-- **How a plan fails.** There is a first step that fails. The steps before it have run their
bodies and recorded their targets, no step behind it is started, and the plan ends as the failed
step does. -/
theorem run_failed (plan : List Step) {current : Option Version} (apart : migrator.BodiesApart tree)
    (table : migrator.options.HasTable db)
    (clean : migrator.options.stateIn db = .ok ⟨current, false⟩)
    (failed : (plan.forM (migrator.applyStep tree) ⟨db, none⟩).result = .error e) :
    ∃ before step after settled trail stop rest,
      plan = before ++ step :: after ∧
      migrator.carried tree before db = some (settled, trail) ∧
      migrator.options.stateIn settled = .ok ⟨Source.reached current before, false⟩ ∧
      FailedStep migrator tree step settled ⟨.error e, stop, rest⟩ ∧
      migrator.applyStep tree step ⟨settled, none⟩ = ⟨.error e, stop, rest⟩ ∧
      plan.forM (migrator.applyStep tree) ⟨db, none⟩ = ⟨.error e, stop, trail ++ rest⟩ := by
  induction plan generalizing db current with
  | nil => cases failed
  | cons step plan ih =>
      rw [Session.forM_cons_apply] at failed ⊢
      rcases applyStep_cases step apart table with ⟨final, first, goesWell, done, rows⟩ | broken
      · rw [Session.bind_of_ok done] at failed ⊢
        obtain ⟨before, bad, after, settled, trail, stop, rest, split, carries, settledClean,
          broken, ended, run⟩ :=
          ih (hasTable_of_rows rows) (StoreOptions.stateIn_rowsOf rows) failed
        refine ⟨step :: before, bad, after, settled, first ++ trail, stop, rest, ?_, ?_, ?_, broken,
          ended, ?_⟩
        · rw [split, List.cons_append]
        · simp only [carried, goesWell, carries, Option.bind_eq_bind, Option.bind_some]
          rfl
        · rw [Source.reached_cons]
          exact settledClean
        · rw [run, List.append_assoc]
      · generalize ended : migrator.applyStep tree step ⟨db, none⟩ = outcome at broken failed
        obtain ⟨result, stop, rest⟩ := outcome
        cases result with
        | ok _ => cases broken
        | error cause =>
            rw [Session.bind_of_error ended] at failed ⊢
            cases failed
            exact ⟨[], step, plan, db, [], stop, rest, rfl, rfl, clean, broken, ended, rfl⟩

/-! ## The steps of a plan -/

/-- A step up is to its own version, and a step down to the one before it. -/
theorem of_mem_plan {source : Source} {current : Option Version} {operation : Operation}
    {step : Step} (member : step ∈ operation.plan source current) :
    step = Source.upStep step.version ∨ step = source.downStep step.version := by
  have ascending {limit : Option Nat} (planned : step ∈ source.planUp current limit) :
      step = Source.upStep step.version ∨ step = source.downStep step.version :=
    .inl (Source.of_mem_planFrom .up planned)
  have descending {limit : Option Nat} (planned : step ∈ source.planDown current limit) :
      step = Source.upStep step.version ∨ step = source.downStep step.version :=
    .inr (Source.of_mem_planFrom .down planned)
  cases operation with
  | up => exact ascending member
  | down => exact descending member
  | goto target =>
      simp only [Operation.plan, planTo] at member
      split at member
      · split at member
        · cases member
        · split at member
          · exact descending (List.takeWhile_subset _ member)
          · exact ascending (List.takeWhile_subset _ member)
      · exact ascending (List.takeWhile_subset _ member)
  | steps count =>
      simp only [Operation.plan, planSteps] at member
      split at member
      · cases member
      · split at member
        · exact ascending member
        · exact descending member

/-- What is planned is the operation's plan from a clean state. -/
theorem of_planned {operation : Operation} {plan : List Step}
    (planned : migrator.planned operation db = .ok plan) :
    ∃ current, migrator.options.stateIn db = .ok ⟨current, false⟩ ∧
      plan = operation.plan migrator.source current := by
  have clean : ∀ current, migrator.cleanIn db = .ok current →
      migrator.options.stateIn db = .ok ⟨current, false⟩ := by
    intro current found
    unfold cleanIn at found
    split at found
    · cases found
    · cases found
    · rename_i recorded
      cases found
      exact recorded
    · rename_i recorded
      split at found
      · cases found
        exact recorded
      · cases found
  unfold Migrator.planned at planned
  split at planned
  · cases planned
  · rename_i current found
    split at planned
    · cases planned
    · simp only at planned
      split at planned
      · cases planned
      · cases planned
        exact ⟨current, clean current found, rfl⟩

/-! ## Operations that fail -/

/-- **An operation that fails midway.** Let an operation have a plan, on a content with a version
table that no body names and without an open transaction, and let the plan fail. Then the steps
before the first that fails have run their bodies and recorded their targets, no step behind it is
started, and the operation ends with the error of that step and with what it leaves: nothing of it
if its file cannot be read, and the store dirty at its target if its body fails or leaves a
transaction open. A body that fails is named by its version and direction, and a number of steps
that are missing is not mentioned. -/
theorem perform_failed (migrator : Migrator) (tree : FileTree) (operation : Operation)
    {db : Database} {plan : List Step} {e : Error} (apart : migrator.BodiesApart tree)
    (table : migrator.options.HasTable db) (planned : migrator.planned operation db = .ok plan)
    (failed : (plan.forM (migrator.applyStep tree) ⟨db, none⟩).result = .error e) :
    ∃ current before step after settled trail stop rest,
      migrator.options.stateIn db = .ok ⟨current, false⟩ ∧
      plan = before ++ step :: after ∧
      (step = Source.upStep step.version ∨ step = migrator.source.downStep step.version) ∧
      migrator.carried tree before db = some (settled, trail) ∧
      migrator.options.stateIn settled = .ok ⟨Source.reached current before, false⟩ ∧
      FailedStep migrator tree step settled ⟨.error e, stop, rest⟩ ∧
      migrator.perform tree operation ⟨db, none⟩ = ⟨.error e, stop, trail ++ rest⟩ ∧
      e.kind ≠ .shortLimit ∧
      ∀ cause, e = .stepFailed step.version step.direction cause →
        e.message = ErrorKind.migration.heading ++ toString step.version ++ "/" ++
          step.direction.name ++ " failed: " ++ cause.message := by
  obtain ⟨current, clean, isPlan⟩ := of_planned planned
  obtain ⟨before, step, after, settled, trail, stop, rest, split, carries, settledClean, broken, _,
    run⟩ := run_failed plan apart table clean failed
  have member : step ∈ operation.plan migrator.source current := by
    rw [← isPlan, split]
    exact List.mem_append_right _ List.mem_cons_self
  refine ⟨current, before, step, after, settled, trail, stop, rest, clean, split,
    of_mem_plan member, carries, settledClean, broken, ?_, ?_, fun cause same => same ▸ rfl⟩
  · rw [perform_eq, show migrator.planned operation (Connection.content ⟨db, none⟩) = _ from
      planned]
    simp only [run, Operation.finish_of_error]
  · rcases migrator.run_raises tree plan ⟨db, none⟩ e failed with kind | kind | kind
    all_goals
      rw [kind]
      decide

/-- The sample directory with a second body that fails after its first statement. -/
def faultyTree : FileTree where
  nodes := [([Bytes.ofString "m"], .directory),
    sampleFile "1_a.up.sql" "CREATE TABLE a (x INTEGER);",
    sampleFile "2_b.up.sql" "CREATE TABLE b (y TEXT); INSERT INTO c VALUES (1);"]

/-- Five steps up that directory, which has two versions, end with the error of the second body. -/
theorem perform_failed_sample :
    let plan := [Source.upStep 1, Source.upStep 2]
    let e := Error.stepFailed 2 .up (.bodyFailed (.noSuchTable "c"))
    sampleMigrator.BodiesApart faultyTree ∧ sampleMigrator.options.HasTable sampleContent ∧
    sampleMigrator.planned (.steps 5) sampleContent = .ok plan ∧
    (plan.forM (sampleMigrator.applyStep faultyTree) ⟨sampleContent, none⟩).result = .error e ∧
    ∃ current before step after settled trail stop rest,
      sampleMigrator.options.stateIn sampleContent = .ok ⟨current, false⟩ ∧
      plan = before ++ step :: after ∧
      (step = Source.upStep step.version ∨
        step = sampleMigrator.source.downStep step.version) ∧
      sampleMigrator.carried faultyTree before sampleContent = some (settled, trail) ∧
      sampleMigrator.options.stateIn settled = .ok ⟨Source.reached current before, false⟩ ∧
      FailedStep sampleMigrator faultyTree step settled ⟨.error e, stop, rest⟩ ∧
      sampleMigrator.perform faultyTree (.steps 5) ⟨sampleContent, none⟩ =
        ⟨.error e, stop, trail ++ rest⟩ ∧
      e.kind ≠ .shortLimit ∧
      ∀ cause, e = .stepFailed step.version step.direction cause →
        e.message = ErrorKind.migration.heading ++ toString step.version ++ "/" ++
          step.direction.name ++ " failed: " ++ cause.message := by
  have apart : sampleMigrator.BodiesApart faultyTree := by decide +kernel
  have planned : sampleMigrator.planned (.steps 5) sampleContent =
      .ok [Source.upStep 1, Source.upStep 2] := by
    decide +kernel
  have failed : ([Source.upStep 1, Source.upStep 2].forM (sampleMigrator.applyStep faultyTree)
      ⟨sampleContent, none⟩).result =
        .error (.stepFailed 2 .up (.bodyFailed (.noSuchTable "c"))) := by
    decide +kernel
  exact ⟨apart, sample_blank.hasTable, planned, failed,
    perform_failed sampleMigrator faultyTree (.steps 5) apart sample_blank.hasTable planned failed⟩

end SchemaMigration.Migrator
