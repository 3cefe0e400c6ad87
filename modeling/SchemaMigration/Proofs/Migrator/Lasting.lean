import SchemaMigration.Proofs.Migrator.Step
import SchemaMigration.Proofs.Store.SettingUp

/-!
# What an operation leaves for the next

An operation reads nothing of the tree but bodies, and what it leaves of a store can be set up again
without a change, as long as its bodies do not define the version table or its index and leave no
transaction open.

* `Migrator.perform_congr`: trees with the same bodies are one to an operation;
* `Migrator.LeavesStanding`: the condition on bodies;
* `Migrator.perform_of_settled`: an operation ends outside a transaction, with the version table and
  its index in place.
-/

namespace SchemaMigration.Migrator

open Sql (Session Connection Database Index)

variable {migrator : Migrator} {tree other : FileTree}

/-! ## Bodies are all that is read -/

theorem applyStep_congr
    (same : ∀ version direction, migrator.source.body? tree version direction =
      migrator.source.body? other version direction) :
    migrator.applyStep tree = migrator.applyStep other := by
  funext step
  rw [applyStep, applyStep, same]

/-- Trees with the same bodies are one to an operation. -/
theorem perform_congr
    (same : ∀ version direction, migrator.source.body? tree version direction =
      migrator.source.body? other version direction) (operation : Operation) :
    migrator.perform tree operation = migrator.perform other operation := by
  have steps : ∀ plan, migrator.apply tree plan = migrator.apply other plan := fun plan => by
    rw [apply, apply, applyStep_congr same]
  cases operation with
  | up => simp only [perform, up, steps]
  | down => simp only [perform, down, steps]
  | goto target => simp only [perform, goto, steps]
  | steps count => simp only [perform, Migrator.steps, steps]

/-! ## What an operation keeps -/

/-- Bodies that leave a store standing: they define neither the version table nor its index, nor the
table that the index is on, and they leave no transaction open. -/
structure LeavesStanding (migrator : Migrator) (tree : FileTree) (index : Index) : Prop where
  apart : ∀ version direction body, migrator.source.body? tree version direction = .ok (some body) →
    ∀ name ∈ migrator.options.standing index, ¬ Sql.Mentions (Sql.Batch.defines body) name
  closes : ∀ version direction body,
    migrator.source.body? tree version direction = .ok (some body) →
      Session.Closes (migrator.options.run body)

/-- Whether the body of one version and direction defines none of the standing names. -/
def bodyStandsApart (migrator : Migrator) (tree : FileTree) (index : Index) (version : Version)
    (direction : Direction) : Bool :=
  match migrator.source.body? tree version direction with
  | .ok (some body) =>
    (migrator.options.standing index).all fun name =>
      !decide (Sql.Mentions (Sql.Batch.defines body) name)
  | _ => true

variable {index : Index}

/-- Bodies in transactions of their own only have to be apart from the standing names. -/
theorem leavesStanding_of_wrapped (wrapped : migrator.options.unwrapped = false)
    (each : ∀ version ∈ migrator.source.versions,
      migrator.bodyStandsApart tree index version .up ∧
        migrator.bodyStandsApart tree index version .down) :
    migrator.LeavesStanding tree index where
  apart version direction body found name stands := by
    have both := each version (contains_of_body found)
    have here : migrator.bodyStandsApart tree index version direction = true := by
      cases direction with
      | up => exact both.1
      | down => exact both.2
    unfold bodyStandsApart at here
    rw [found] at here
    simpa using List.all_eq_true.mp here name stands
  closes version direction body _ := StoreOptions.run_closed wrapped body

theorem LeavesStanding.applyStep_closes (leaves : migrator.LeavesStanding tree index)
    (step : Step) : Session.Closes (migrator.applyStep tree step) := by
  have recorded : ∀ version dirty, Session.Closes (migrator.options.record version dirty) :=
    fun version dirty => StoreOptions.record_closes version dirty
  cases read : migrator.source.body? tree step.version step.direction with
  | error e =>
      intro db
      rw [applyStep_of_unreadable read]
  | ok body? =>
      cases body? with
      | none =>
          intro db
          rw [applyStep_of_no_body read]
          exact recorded _ _ db
      | some body =>
          intro db
          rw [applyStep_of_body read]
          have ran := (leaves.closes _ _ body read).mapError
            (Error.stepFailed step.version step.direction)
          exact ((recorded _ _).bind fun _ => ran.bind fun _ => recorded _ _) db

theorem LeavesStanding.applyStep_keeps (leaves : migrator.LeavesStanding tree index) (step : Step) :
    Session.Keeps (Connection.Has (migrator.options.Settled index))
      (migrator.applyStep tree step) := by
  have recorded : ∀ version dirty, Session.Keeps (Connection.Has (migrator.options.Settled index))
      (migrator.options.record version dirty) :=
    fun version dirty => StoreOptions.record_keeps_settled version dirty
  cases read : migrator.source.body? tree step.version step.direction with
  | error e =>
      intro start has
      rw [applyStep_of_unreadable read]
      exact ⟨has, fun _ member => nomatch member⟩
  | ok body? =>
      cases body? with
      | none =>
          intro start has
          rw [applyStep_of_no_body read]
          exact recorded _ _ start has
      | some body =>
          intro start has
          rw [applyStep_of_body read]
          have ran := Session.Keeps.mapError (Error.stepFailed step.version step.direction)
            (StoreOptions.run_keeps_settled (leaves.apart _ _ body read))
          exact ((recorded _ _).bind fun _ => ran.bind fun _ => recorded _ _) start has

/-- **What an operation leaves.** Whatever its result, it ends outside a transaction, and the
version table and its index stand. -/
theorem perform_of_settled (leaves : migrator.LeavesStanding tree index) {db : Database}
    (settled : migrator.options.Settled index db) (operation : Operation) :
    ∃ after, (migrator.perform tree operation ⟨db, none⟩).connection = ⟨after, none⟩ ∧
      migrator.options.Settled index after := by
  let plan := migrator.plannedSteps operation db
  have run : (migrator.perform tree operation ⟨db, none⟩).connection =
      (plan.forM (migrator.applyStep tree) ⟨db, none⟩).connection := (perform_run operation).2
  have closed := Session.Closes.forM (fun step (_ : step ∈ plan) => leaves.applyStep_closes step) db
  have kept := (Session.Keeps.forM (fun step (_ : step ∈ plan) => leaves.applyStep_keeps step)
    ⟨db, none⟩ (.outside settled)).1
  rw [← run] at closed kept
  generalize (migrator.perform tree operation ⟨db, none⟩).connection = left at closed kept
  obtain ⟨after, working⟩ := left
  cases closed
  exact ⟨after, rfl, kept.committed⟩

end SchemaMigration.Migrator
