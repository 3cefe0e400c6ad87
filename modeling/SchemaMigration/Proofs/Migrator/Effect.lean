import SchemaMigration.Proofs.Migrator.Step
import SchemaMigration.Proofs.Sql.Undoing

/-!
# Effects of bodies

What a body makes of a content without version rows, and that a step makes just that beside the
state it records.

* `Migrator.effect`: what the body of a version makes of a content;
* `Migrator.applyStep_of_effect`, `Migrator.applyStep_of_no_effect`: a step makes the effect of its
  body, or it is stopped, or its body fails;
* `Migrator.Reversible`: the down body of a version gives back every content on which the up body
  succeeds;
* `Migrator.reversible_of_undone`: a directory of statements that undo one another is reversible.
-/

namespace SchemaMigration.Migrator

open Sql (Session Connection Database Outcome)

/-- What the body of a version makes of a content, if it can be read and succeeds. A version without
a body leaves it as it is. -/
def effect (migrator : Migrator) (tree : FileTree) (direction : Direction) (db : Database)
    (version : Version) : Option Database :=
  match migrator.source.body? tree version direction with
  | .error _ => none
  | .ok none => some db
  | .ok (some body) =>
    let outcome := migrator.options.run body ⟨db, none⟩
    outcome.result.toOption.map fun _ => outcome.connection.content

/-- A directory in which down undoes up. Bodies do not name the version table and leave no
transaction open. -/
structure Reversible (migrator : Migrator) (tree : FileTree) : Prop where
  apart : migrator.BodiesApart tree
  closed : ∀ version direction body db, migrator.options.Blank db →
    migrator.source.body? tree version direction = .ok (some body) →
    (migrator.options.run body ⟨db, none⟩).result = .ok () →
    (migrator.options.run body ⟨db, none⟩).connection.working = none
  undoes : ∀ version before after, migrator.options.Blank before →
    migrator.effect tree .up before version = some after →
    migrator.effect tree .down after version = some before

variable {migrator : Migrator} {tree : FileTree} {db user after : Database}

theorem effect_of_no_body {version : Version} {direction : Direction}
    (absent : migrator.source.body? tree version direction = .ok none) :
    migrator.effect tree direction db version = some db := by
  unfold effect
  rw [absent]

theorem effect_of_body {version : Version} {direction : Direction} {body : String}
    (found : migrator.source.body? tree version direction = .ok (some body)) :
    migrator.effect tree direction db version =
      (migrator.options.run body ⟨db, none⟩).result.toOption.map fun _ =>
        (migrator.options.run body ⟨db, none⟩).connection.content := by
  unfold effect
  rw [found]

theorem readable_of_effect {version : Version} {direction : Direction}
    (made : migrator.effect tree direction db version = some after) :
    ∃ body?, migrator.source.body? tree version direction = .ok body? := by
  unfold effect at made
  cases read : migrator.source.body? tree version direction with
  | ok body? => exact ⟨body?, rfl⟩
  | error e =>
      rw [read] at made
      cases made

/-! ## A step beside a recorded state -/

/-- A success of a body in a reversible directory, as an outcome. -/
theorem Reversible.run_of_effect (reversible : migrator.Reversible tree)
    (blank : migrator.options.Blank user) {version : Version} {direction : Direction}
    {body : String} (found : migrator.source.body? tree version direction = .ok (some body))
    (made : migrator.effect tree direction user version = some after) :
    ∃ trail, migrator.options.run body ⟨user, none⟩ = ⟨.ok (), ⟨after, none⟩, trail⟩ := by
  have closed := reversible.closed version direction body user blank found
  rw [effect_of_body found] at made
  generalize migrator.options.run body ⟨user, none⟩ = outcome at made closed
  obtain ⟨result, ⟨committed, working⟩, trail⟩ := outcome
  cases result with
  | error e => cases made
  | ok value =>
      cases closed rfl
      cases made
      exact ⟨trail, rfl⟩

theorem error_of_no_effect {version : Version} {direction : Direction}
    {body : String} (found : migrator.source.body? tree version direction = .ok (some body))
    (failed : migrator.effect tree direction user version = none) :
    ∃ e, (migrator.options.run body ⟨user, none⟩).result = .error e := by
  rw [effect_of_body found] at failed
  cases ran : (migrator.options.run body ⟨user, none⟩).result with
  | error e => exact ⟨e, rfl⟩
  | ok value =>
      rw [ran] at failed
      cases failed

theorem Reversible.blank_of_effect (reversible : migrator.Reversible tree)
    (blank : migrator.options.Blank user) {version : Version} {direction : Direction}
    (made : migrator.effect tree direction user version = some after) :
    migrator.options.Blank after := by
  obtain ⟨body?, read⟩ := readable_of_effect made
  cases body? with
  | none =>
      rw [effect_of_no_body read] at made
      cases made
      exact blank
  | some body =>
      obtain ⟨_, ran⟩ := reversible.run_of_effect blank read made
      exact blank.after_run (reversible.apart _ _ _ read) ran

/-- A step whose body goes well leaves what the body makes and the target beside it. -/
theorem applyStep_of_effect (reversible : migrator.Reversible tree)
    (blank : migrator.options.Blank user) {step : Step}
    (fits : ∀ number, step.target = some number → number ≤ Numeral.signedMax)
    (made : migrator.effect tree step.direction user step.version = some after)
    (current : Option Version) :
    ∃ trail, migrator.applyStep tree step ⟨migrator.options.recorded current false user, none⟩ =
      ⟨.ok (), ⟨migrator.options.recorded step.target false after, none⟩, trail⟩ := by
  have free := blank.free.recorded current false
  have afterBlank := reversible.blank_of_effect blank made
  obtain ⟨body?, read⟩ := readable_of_effect made
  cases body? with
  | none =>
      rw [effect_of_no_body read] at made
      cases made
      rw [applyStep_of_no_body read, StoreOptions.record_eq free false fits,
        blank.hasTable.recorded_recorded]
      exact ⟨_, rfl⟩
  | some body =>
      have marking := StoreOptions.record_eq free true fits
      rw [blank.hasTable.recorded_recorded] at marking
      obtain ⟨_, ran⟩ := reversible.run_of_effect blank read made
      obtain ⟨trail, beside⟩ :=
        blank.run_recorded_of_ok (reversible.apart _ _ _ read) ran step.target true
      have body : Session.mapError (Error.stepFailed step.version step.direction)
          (migrator.options.run body)
          ⟨migrator.options.recorded step.target true user, none⟩ =
            ⟨.ok (), ⟨migrator.options.recorded step.target true after, none⟩, trail⟩ := by
        rw [Session.mapError_apply, beside]
        rfl
      have recording :=
        StoreOptions.record_eq (afterBlank.free.recorded step.target true) false fits
      rw [afterBlank.hasTable.recorded_recorded] at recording
      rw [applyStep_of_body read, Session.bind_of_ok marking, Session.bind_of_ok body, recording]
      exact ⟨_, rfl⟩

/-- A failure that is a body's. -/
def isBodyFailure : Except Error Unit → Bool
  | .error (.stepFailed _ _ _) => true
  | _ => false

/-- A step whose body does not go well is stopped before it does anything, or its body failed. -/
theorem applyStep_of_no_effect (apart : migrator.BodiesApart tree)
    (blank : migrator.options.Blank user) {step : Step}
    (fits : ∀ number, step.target = some number → number ≤ Numeral.signedMax)
    (failed : migrator.effect tree step.direction user step.version = none)
    (current : Option Version) :
    let start : Connection := ⟨migrator.options.recorded current false user, none⟩
    (∃ e, migrator.applyStep tree step start = ⟨.error e, start, []⟩) ∨
      ∃ e, (migrator.applyStep tree step start).result = .error e ∧
        isBodyFailure (.error e) = true := by
  intro start
  cases read : migrator.source.body? tree step.version step.direction with
  | error e => exact .inl ⟨e, applyStep_of_unreadable read⟩
  | ok body? =>
      cases body? with
      | none =>
          rw [effect_of_no_body read] at failed
          cases failed
      | some body =>
          have marking := StoreOptions.record_eq (blank.free.recorded current false) true fits
          rw [blank.hasTable.recorded_recorded] at marking
          obtain ⟨_, ran⟩ := error_of_no_effect read failed
          obtain ⟨e, beside⟩ :=
            blank.run_recorded_of_error (apart _ _ _ read) ran step.target true
          refine .inr ⟨.stepFailed step.version step.direction e, ?_, rfl⟩
          rw [applyStep_of_body read, Session.bind_of_ok marking]
          generalize outcome : migrator.options.run body
            ⟨migrator.options.recorded step.target true user, none⟩ = stopped at beside
          obtain ⟨result, stop, trail⟩ := stopped
          cases beside
          have body : Session.mapError (Error.stepFailed step.version step.direction)
              (migrator.options.run body)
              ⟨migrator.options.recorded step.target true user, none⟩ =
                ⟨.error (.stepFailed step.version step.direction e), stop, trail⟩ := by
            rw [Session.mapError_apply, outcome]
            rfl
          rw [Session.bind_of_error body]

/-! ## Directories of single statements -/

/-- The bodies of a version are two statements of which the second undoes the first. -/
structure Undone (migrator : Migrator) (tree : FileTree) (version : Version)
    (first second : Sql.Statement) : Prop where
  up : ∃ body, migrator.source.body? tree version .up = .ok (some body) ∧
    Sql.Batch.read body = [.statement first]
  down : ∃ body, migrator.source.body? tree version .down = .ok (some body) ∧
    Sql.Batch.read body = [.statement second]
  ordinary : first.heedsTransaction = false ∧ second.heedsTransaction = false
  undoes : second.Undoes first

theorem effect_of_statement (wrapped : migrator.options.unwrapped = false) {version : Version}
    {direction : Direction} {body : String} {statement : Sql.Statement}
    (found : migrator.source.body? tree version direction = .ok (some body))
    (reads : Sql.Batch.read body = [.statement statement])
    (ordinary : statement.heedsTransaction = false) (db : Database) :
    migrator.effect tree direction db version = (db.execute statement).toOption := by
  have runs := StoreOptions.run_of_statement wrapped reads ordinary db
  rw [effect_of_body found]
  cases executed : db.execute statement with
  | ok after =>
      rw [executed] at runs
      obtain ⟨trail, ran⟩ := runs
      rw [ran]
      rfl
  | error fault =>
      rw [executed] at runs
      rw [show (migrator.options.run body ⟨db, none⟩).result = _ from runs]
      rfl

/-- A directory of such versions is reversible when its bodies are run in transactions. -/
theorem reversible_of_undone (wrapped : migrator.options.unwrapped = false)
    (apart : migrator.BodiesApart tree)
    (undone : ∀ version ∈ migrator.source.versions,
      ∃ first second, migrator.Undone tree version first second) :
    migrator.Reversible tree := by
  refine ⟨apart, fun _ _ body db _ _ _ => StoreOptions.run_closed wrapped body db, ?_⟩
  intro version before after blank made
  by_cases member : version ∈ migrator.source.versions
  · obtain ⟨first, second, pair⟩ := undone version member
    obtain ⟨upBody, upFound, upReads⟩ := pair.up
    obtain ⟨downBody, downFound, downReads⟩ := pair.down
    rw [effect_of_statement wrapped upFound upReads pair.ordinary.1] at made
    rw [effect_of_statement wrapped downFound downReads pair.ordinary.2]
    cases executed : before.execute first with
    | error fault =>
        rw [executed] at made
        cases made
    | ok next =>
        rw [executed] at made
        cases made
        rw [pair.undoes before after blank.wellFormed executed]
        rfl
  · rw [effect_of_no_body (body?_of_not_mem member)] at made ⊢
    exact made.symm

theorem sample_undone (version : Version) (name : String) (definition : Sql.TableDefinition)
    (named : definition.name = name)
    (up : ∃ body, sampleMigrator.source.body? sampleTree version .up = .ok (some body) ∧
      Sql.Batch.read body = [.statement (.createTable false definition)])
    (down : ∃ body, sampleMigrator.source.body? sampleTree version .down = .ok (some body) ∧
      Sql.Batch.read body = [.statement (.dropTable false name)]) :
    ∃ first second, sampleMigrator.Undone sampleTree version first second :=
  ⟨_, _, up, down, ⟨rfl, rfl⟩, named ▸ Sql.Statement.dropTable_undoes definition⟩

theorem sample_reversible : sampleMigrator.Reversible sampleTree := by
  refine reversible_of_undone rfl sample_apart fun version member => ?_
  have versions : sampleMigrator.source.versions = [1, 2] := rfl
  rw [versions] at member
  rcases List.mem_pair.mp member with rfl | rfl
  · exact sample_undone 1 "a" ⟨"a", "a", [⟨"x", "INTEGER", []⟩], []⟩ rfl
      ⟨"CREATE TABLE a (x INTEGER);", by decide +kernel, by decide +kernel⟩
      ⟨"DROP TABLE a;", by decide +kernel, by decide +kernel⟩
  · exact sample_undone 2 "b" ⟨"b", "b", [⟨"y", "TEXT", []⟩], []⟩ rfl
      ⟨"CREATE TABLE b (y TEXT);", by decide +kernel, by decide +kernel⟩
      ⟨"DROP TABLE b;", by decide +kernel, by decide +kernel⟩

end SchemaMigration.Migrator
