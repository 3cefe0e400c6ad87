import SchemaMigration.Proofs.Migrator.Step

/-!
# Interrupted operations

A crash between two statements loses the open transaction and keeps what is committed. What it
leaves of an operation is told here by the number of statements that were issued before it:
`Outcome.persisted`.

* `Migrator.completedWithin`: how many steps of a plan are completed by then;
* `Migrator.run_interrupted`: what a crash leaves of a plan, by induction on its steps;
* `Migrator.perform_interrupted`: a crash leaves exactly the completed steps and a clean state, or
  the mark of the step that was in progress.
-/

namespace SchemaMigration

open Sql (Session Connection Database Outcome)
open StoreOptions (rowsOf)

/-! ## Cuts -/

/-- The connection after so many statements of a trail. -/
def Sql.cut (trail : List Connection) (start : Connection) (n : Nat) : Connection :=
  (trail.take n).getLast?.getD start

/-- The content that a crash after so many statements leaves. -/
def Sql.Outcome.persisted {ε α : Type} (outcome : Outcome ε α) (start : Connection) (n : Nat) :
    Database :=
  (Sql.cut outcome.trail start n).committed

section Cut

variable {first rest : List Connection} {start : Connection} {n : Nat}

theorem cut_append_left (within : n ≤ first.length) :
    Sql.cut (first ++ rest) start n = Sql.cut first start n := by
  unfold Sql.cut
  rw [List.take_append_of_le_length within]

theorem cut_append_right (beyond : first.length ≤ n) :
    Sql.cut (first ++ rest) start n =
      Sql.cut rest (first.getLast?.getD start) (n - first.length) := by
  unfold Sql.cut
  rw [List.take_append, List.take_of_length_le beyond, List.getLast?_append]
  cases (rest.take (n - first.length)).getLast? <;> rfl

/-- A cut is at the start or at a point of the trail. -/
theorem cut_cases (trail : List Connection) (start : Connection) (n : Nat) :
    Sql.cut trail start n = start ∨ Sql.cut trail start n ∈ trail := by
  unfold Sql.cut
  cases last : (trail.take n).getLast? with
  | none => exact .inl rfl
  | some point => exact .inr (List.mem_of_mem_take (List.mem_of_getLast? last))

end Cut

namespace Migrator

/-- How many steps of a plan, run one after the other, are completed within so many statements:
those whose last statement, which commits the clean target, is among them. -/
def completedWithin (migrator : Migrator) (tree : FileTree) :
    List Step → Connection → Nat → Nat
  | [], _, _ => 0
  | step :: rest, start, n =>
    let outcome := migrator.applyStep tree step start
    match outcome.result with
    | .ok _ =>
      if outcome.trail.length ≤ n then
        migrator.completedWithin tree rest outcome.connection (n - outcome.trail.length) + 1
      else 0
    | .error _ => 0

/-- What a crash may leave of a plan when some of its steps are completed: the clean content that
these steps leave when nothing follows them, or a content marked for the next step. -/
def Recoverable (migrator : Migrator) (tree : FileTree) (plan : List Step)
    (version : Option Version) (db : Database) (completed : Nat) (left : Database) : Prop :=
  (∃ trail, (plan.take completed).forM (migrator.applyStep tree) ⟨db, none⟩ =
      ⟨.ok (), ⟨left, none⟩, trail⟩ ∧
    migrator.options.stateIn left = .ok ⟨Source.reached version (plan.take completed), false⟩) ∨
  ∃ step, plan[completed]? = some step ∧
    migrator.options.stateIn left = .ok ⟨step.target, true⟩

variable {migrator : Migrator} {tree : FileTree} {db : Database} {version : Option Version}

/-- Before the first step is completed, its unchanged and its marked contents are recoverable. -/
theorem recoverable_of_first {step : Step} {rest : List Step} {point : Connection}
    (clean : migrator.options.stateIn db = .ok ⟨version, false⟩)
    (seen : point.committed = db ∨ MarkedFor migrator.options step.target point) :
    migrator.Recoverable tree (step :: rest) version db 0 point.committed := by
  rcases seen with same | marked
  · rw [same]
    exact .inl ⟨[], rfl, clean⟩
  · exact .inr ⟨step, rfl, StoreOptions.stateIn_rowsOf marked⟩

/-- A completed step leaves the rest of the plan to be recovered from where it ended. -/
theorem Recoverable.cons {step : Step} {rest : List Step} {completed : Nat} {after left : Database}
    {trail : List Connection}
    (done : migrator.applyStep tree step ⟨db, none⟩ = ⟨.ok (), ⟨after, none⟩, trail⟩)
    (recoverable : migrator.Recoverable tree rest step.target after completed left) :
    migrator.Recoverable tree (step :: rest) version db (completed + 1) left := by
  rcases recoverable with ⟨later, ran, clean⟩ | ⟨next, found, marked⟩
  · refine .inl ⟨trail ++ later, ?_, ?_⟩
    · rw [List.take_succ_cons]
      refine (Session.bind_of_ok done).trans ?_
      rw [ran]
    · rw [clean, List.take_succ_cons, Source.reached_cons]
  · exact .inr ⟨next, found, marked⟩

section Completed

variable {step : Step} {rest : List Step} {start stop : Connection} {trail : List Connection}
  {n : Nat}

theorem completedWithin_of_error {e : Error}
    (failed : migrator.applyStep tree step start = ⟨.error e, stop, trail⟩) :
    migrator.completedWithin tree (step :: rest) start n = 0 := by
  simp only [completedWithin, failed]

theorem completedWithin_of_early (done : migrator.applyStep tree step start = ⟨.ok (), stop, trail⟩)
    (early : n < trail.length) : migrator.completedWithin tree (step :: rest) start n = 0 := by
  simp only [completedWithin, done]
  rw [if_neg (Nat.not_le.mpr early)]

theorem completedWithin_of_late (done : migrator.applyStep tree step start = ⟨.ok (), stop, trail⟩)
    (late : trail.length ≤ n) :
    migrator.completedWithin tree (step :: rest) start n =
      migrator.completedWithin tree rest stop (n - trail.length) + 1 := by
  simp only [completedWithin, done]
  rw [if_pos late]

end Completed

/-- **What a crash leaves of a plan.** -/
theorem run_interrupted (plan : List Step) (apart : migrator.BodiesApart tree)
    (table : migrator.options.HasTable db)
    (clean : migrator.options.stateIn db = .ok ⟨version, false⟩) (n : Nat) :
    migrator.Recoverable tree plan version db
      (migrator.completedWithin tree plan ⟨db, none⟩ n)
      ((plan.forM (migrator.applyStep tree) ⟨db, none⟩).persisted ⟨db, none⟩ n) := by
  induction plan generalizing db version n with
  | nil =>
      have start : Sql.cut [] ⟨db, none⟩ n = ⟨db, none⟩ := by
        rw [Sql.cut, List.take_nil]
        rfl
      show migrator.Recoverable tree [] version db 0 (Sql.cut [] ⟨db, none⟩ n).committed
      rw [start]
      exact .inl ⟨[], rfl, clean⟩
  | cons step rest ih =>
      have stepRun := applyStep_run step apart table
      generalize ran : migrator.applyStep tree step ⟨db, none⟩ = outcome at stepRun
      show migrator.Recoverable tree (step :: rest) version db _
        (((migrator.applyStep tree step >>= fun _ => rest.forM (migrator.applyStep tree))
          ⟨db, none⟩).persisted ⟨db, none⟩ n)
      cases stepRun with
      | @stopped e quiet unchanged =>
          rw [completedWithin_of_error ran, Session.bind_of_error ran]
          refine recoverable_of_first clean (.inl ?_)
          rcases cut_cases quiet ⟨db, none⟩ n with start | member
          · rw [start]
          · exact unchanged _ member
      | @broken e quiet marked stop unchanged dirty left =>
          rw [completedWithin_of_error ran, Session.bind_of_error ran]
          refine recoverable_of_first clean ?_
          rcases cut_cases (quiet ++ marked) ⟨db, none⟩ n with start | member
          · exact .inl (by rw [start])
          · exact (List.mem_append.mp member).imp (unchanged _) (dirty _)
      | @finished quiet marked after unchanged dirty cleanAfter =>
          rw [Session.bind_of_ok ran]
          unfold Outcome.persisted
          let last : Connection := ⟨after, none⟩
          rcases Nat.lt_or_ge n (quiet ++ marked ++ [last]).length with early | late
          · -- Before its last statement the step has only unchanged and marked contents.
            rw [completedWithin_of_early ran early, cut_append_left (Nat.le_of_lt early)]
            rw [List.length_append, List.length_singleton] at early
            rw [cut_append_left (Nat.le_of_lt_succ early)]
            refine recoverable_of_first clean ?_
            rcases cut_cases (quiet ++ marked) ⟨db, none⟩ n with start | member
            · exact .inl (by rw [start])
            · exact (List.mem_append.mp member).imp (unchanged _) (dirty _)
          · rw [completedWithin_of_late ran late, cut_append_right late, List.getLast?_append]
            refine Recoverable.cons ran ?_
            exact ih (hasTable_of_rows cleanAfter) (StoreOptions.stateIn_rowsOf cleanAfter) _

/-- **Crash safety.** Let an operation start on a clean content with a version table and without a
transaction, and let a crash come after any number of its statements, those of the bodies included.
It leaves exactly what the completed steps leave, with their last target recorded clean, or the mark
of the step that was in progress. -/
theorem perform_interrupted (migrator : Migrator) (tree : FileTree) (operation : Operation)
    (db : Database) (version : Option Version) (apart : migrator.BodiesApart tree)
    (table : migrator.options.HasTable db)
    (clean : migrator.options.stateIn db = .ok ⟨version, false⟩) (n : Nat) :
    let plan := migrator.plannedSteps operation db
    migrator.Recoverable tree plan version db (migrator.completedWithin tree plan ⟨db, none⟩ n)
      ((migrator.perform tree operation ⟨db, none⟩).persisted ⟨db, none⟩ n) := by
  have same := (@perform_run migrator tree ⟨db, none⟩ operation).1
  have recoverable := run_interrupted (migrator.plannedSteps operation db) apart table clean n
  unfold Outcome.persisted at *
  rw [same]
  exact recoverable

/-- A crash in the middle of the second body of the sample directory leaves the first step. -/
theorem perform_interrupted_sample :
    sampleMigrator.completedWithin sampleTree (sampleMigrator.plannedSteps .up sampleContent)
        ⟨sampleContent, none⟩ 16 = 1 ∧
      sampleMigrator.Recoverable sampleTree (sampleMigrator.plannedSteps .up sampleContent) none
        sampleContent
        (sampleMigrator.completedWithin sampleTree (sampleMigrator.plannedSteps .up sampleContent)
          ⟨sampleContent, none⟩ 16)
        ((sampleMigrator.perform sampleTree .up ⟨sampleContent, none⟩).persisted
          ⟨sampleContent, none⟩ 16) :=
  ⟨by decide +kernel, perform_interrupted sampleMigrator sampleTree .up sampleContent none
    sample_apart sample_blank.hasTable (by decide +kernel) 16⟩

end Migrator

end SchemaMigration
