import Mathlib.Data.Nat.Dist
import SchemaMigration.Proofs.Migrator.Step

/-!
# The migrator as a cursor

A migrator moves a cursor along the positions of its source. `Migrator.carried` says what a stretch
does to a content: each body that exists is run once, in order, on the content marked with the
target of its step, and then the target is recorded.

* `Migrator.run_carried`: if the bodies go well, running the steps does exactly that;
* `Migrator.perform_cursor`: where every operation goes from every position, and what it says.

The version table must not be referred to: a foreign key into it keeps its row from being replaced,
as `Migrator.perform_referred` shows.
-/

namespace SchemaMigration.Migrator

open Sql (Session Connection Database Outcome)

/-- What a step makes of a content, and the connections on the way, if its body can be read and runs
without error and without leaving a transaction open. -/
def carriedStep (migrator : Migrator) (tree : FileTree) (step : Step) (db : Database) :
    Option (Database × List Connection) :=
  let options := migrator.options
  match migrator.source.body? tree step.version step.direction with
  | .error _ => none
  | .ok none =>
    some (options.recorded step.target false db, options.recording step.target false db)
  | .ok (some body) =>
    match options.run body ⟨options.recorded step.target true db, none⟩ with
    | ⟨.ok (), ⟨after, none⟩, trail⟩ =>
      some (options.recorded step.target false after,
        options.recording step.target true db ++ trail ++
          options.recording step.target false after)
    | _ => none

/-- What steps make of a content one after the other. -/
def carried (migrator : Migrator) (tree : FileTree) :
    List Step → Database → Option (Database × List Connection)
  | [], db => some (db, [])
  | step :: rest, db => do
    let (middle, first) ← migrator.carriedStep tree step db
    let (final, later) ← migrator.carried tree rest middle
    return (final, first ++ later)

variable {migrator : Migrator} {tree : FileTree} {db final : Database} {trail : List Connection}

/-- If its body goes well, a step does what `carriedStep` says. -/
theorem applyStep_carried {step : Step} (apart : migrator.BodiesApart tree)
    (free : migrator.options.Free db)
    (fits : ∀ number, step.target = some number → number ≤ Numeral.signedMax)
    (goesWell : migrator.carriedStep tree step db = some (final, trail)) :
    migrator.applyStep tree step ⟨db, none⟩ = ⟨.ok (), ⟨final, none⟩, trail⟩ ∧
      migrator.options.Free final ∧
      migrator.options.HasRows final (StoreOptions.rowsOf step.target false) := by
  unfold carriedStep at goesWell
  cases read : migrator.source.body? tree step.version step.direction with
  | error e =>
      rw [read] at goesWell
      cases goesWell
  | ok body? =>
      rw [read] at goesWell
      cases body? with
      | none =>
          cases goesWell
          rw [applyStep_of_no_body read, StoreOptions.record_eq free false fits]
          exact ⟨rfl, free.recorded _ _, free.hasTable.recorded _ _⟩
      | some body =>
          have marking := StoreOptions.record_eq free true fits
          have marked := free.recorded step.target true
          simp only at goesWell
          split at goesWell
          · rename_i after bodyTrail ran
            cases goesWell
            have afterFree := StoreOptions.of_run
              (fun _ notNamed => StoreOptions.execute_keeps_free notNamed) (apart _ _ _ read)
              marked ran
            have ranWell : Session.mapError (Error.stepFailed step.version step.direction)
                (migrator.options.run body)
                ⟨migrator.options.recorded step.target true db, none⟩ =
                  ⟨.ok (), ⟨after, none⟩, bodyTrail⟩ := by
              rw [Session.mapError_apply, ran]
              rfl
            rw [applyStep_of_body read, Session.bind_of_ok marking, Session.bind_of_ok ranWell,
              StoreOptions.record_eq afterFree false fits, List.append_assoc]
            exact ⟨rfl, afterFree.recorded _ _, afterFree.hasTable.recorded _ _⟩
          · cases goesWell

/-- **Carrying out steps.** If the bodies go well, the steps do what `carried` says, and the target
of the last one is recorded clean. -/
theorem run_carried (plan : List Step) {current : Option Version}
    (apart : migrator.BodiesApart tree) (free : migrator.options.Free db)
    (recorded : migrator.options.stateIn db = .ok ⟨current, false⟩)
    (fits : ∀ step ∈ plan, ∀ number, step.target = some number → number ≤ Numeral.signedMax)
    (goesWell : migrator.carried tree plan db = some (final, trail)) :
    plan.forM (migrator.applyStep tree) ⟨db, none⟩ = ⟨.ok (), ⟨final, none⟩, trail⟩ ∧
      migrator.options.stateIn final = .ok ⟨Source.reached current plan, false⟩ := by
  induction plan generalizing db current trail with
  | nil =>
      cases goesWell
      exact ⟨rfl, recorded⟩
  | cons step rest ih =>
      obtain ⟨⟨middle, first⟩, stepWell, goesWell⟩ := Option.bind_eq_some_iff.mp goesWell
      obtain ⟨⟨last, later⟩, restWell, done⟩ := Option.bind_eq_some_iff.mp goesWell
      cases done
      obtain ⟨stepRun, middleFree, rows⟩ :=
        applyStep_carried apart free (fits step List.mem_cons_self) stepWell
      obtain ⟨restRun, clean⟩ := ih middleFree (StoreOptions.stateIn_rowsOf rows)
        (fun other member => fits other (List.mem_cons_of_mem _ member)) restWell
      rw [Source.reached_cons]
      refine ⟨(Session.bind_of_ok stepRun).trans ?_, clean⟩
      rw [restRun]

/-- **The migrator is a cursor.** Let a store be clean at position `i` of an opened source, with a
version table to which nothing refers and without an open transaction. A target that the source does
not have is refused. An operation that heads for `i` itself is no change. An operation that heads
for another position `j` runs, if the bodies go well, exactly those between the positions, records
`j` clean, and tells only a number of steps that were not there. -/
theorem perform_cursor (migrator : Migrator) (tree : FileTree) {files : FileTree}
    {directory : Path} (opened : Source.openDirectory files directory = .ok migrator.source)
    {db : Database} {i : Nat} (within : i ≤ migrator.source.versions.length)
    (free : migrator.options.Free db)
    (recorded : migrator.options.stateIn db = .ok ⟨migrator.source.versionAt i, false⟩)
    (apart : migrator.BodiesApart tree) (operation : Operation) :
    match operation.destination? migrator.source i with
    | none => ∃ target, operation = .goto target ∧
        migrator.perform tree operation ⟨db, none⟩ =
          ⟨.error (.targetNotInSource target), ⟨db, none⟩, []⟩
    | some j =>
      if i = j then
        migrator.perform tree operation ⟨db, none⟩ = ⟨.error .noChange, ⟨db, none⟩, []⟩
      else ∀ final trail,
        migrator.carried tree (migrator.source.stretch i j) db = some (final, trail) →
          migrator.perform tree operation ⟨db, none⟩ =
              ⟨operation.verdict (Nat.dist i j), ⟨final, none⟩, trail⟩ ∧
            migrator.options.stateIn final = .ok ⟨migrator.source.versionAt j, false⟩ := by
  have ordered := Source.openDirectory_ordered opened
  have performed := @perform_eq migrator tree ⟨db, none⟩ operation
  cases heads : operation.destination? migrator.source i with
  | none =>
      obtain ⟨target, isGoto, refused⟩ := planned_nowhere recorded heads
      refine ⟨target, isGoto, performed.trans ?_⟩
      rw [show migrator.planned operation (Connection.content ⟨db, none⟩) = _ from refused]
  | some j =>
      have bound := Operation.destination?_le heads
      have planned := planned_versionAt ordered within recorded heads
      simp only
      split
      · rename_i arrived
        rw [if_pos arrived] at planned
        rw [performed, show migrator.planned operation (Connection.content ⟨db, none⟩) = _ from
          planned]
      · rename_i away
        rw [if_neg away] at planned
        intro final trail goesWell
        obtain ⟨ran, clean⟩ := run_carried (migrator.source.stretch i j) apart free recorded
          (ordered.stretch_fits within bound) goesWell
        have count : (migrator.source.stretch i j).length = Nat.dist i j := by
          rw [Source.length_stretch within bound, Nat.dist]
          split <;> omega
        rw [Source.reached_stretch ordered within bound] at clean
        refine ⟨?_, clean⟩
        rw [performed, show migrator.planned operation (Connection.content ⟨db, none⟩) = _ from
          planned]
        simp only [ran, Operation.finish_of_ok, count]

/-- Five steps up the sample directory, which has two versions, make two and miss three. -/
theorem perform_cursor_sample :
    ∃ final trail, sampleMigrator.carried sampleTree (sampleMigrator.source.stretch 0 2)
        sampleContent = some (final, trail) ∧
      sampleMigrator.perform sampleTree (.steps 5) ⟨sampleContent, none⟩ =
        ⟨.error (.shortLimit 3), ⟨final, none⟩, trail⟩ ∧
      sampleMigrator.options.stateIn final = .ok ⟨some 2, false⟩ := by
  have goesWell : (sampleMigrator.carried sampleTree (sampleMigrator.source.stretch 0 2)
      sampleContent).isSome = true := by
    decide +kernel
  obtain ⟨⟨final, trail⟩, carries⟩ := Option.isSome_iff_exists.mp goesWell
  have cursor := perform_cursor sampleMigrator sampleTree sample_opened (Nat.zero_le _)
    sample_blank.free (by decide +kernel) sample_apart (.steps 5)
  have heads : (Operation.steps 5).destination? sampleMigrator.source 0 = some 2 := by
    decide +kernel
  rw [heads] at cursor
  exact ⟨final, trail, carries, cursor final trail carries⟩

/-! ## A version table that is referred to -/

/-- A store at version 1 of the sample directory, whose database has a table with a reference to the
version row. -/
def referringContent : Database :=
  let setUp : Session Error Unit := do
    sampleMigrator.options.record (some 1) false
    Session.mapError .bodyFailed (Session.batch (Sql.Batch.read
      ("CREATE TABLE x (v INTEGER REFERENCES schema_migrations (version));" ++
        "INSERT INTO x VALUES (1);")))
  (setUp ⟨sampleContent, none⟩).connection.committed

/-- A reference to the version row keeps the store where it is, although the bodies would go
well. -/
theorem perform_referred :
    Source.openDirectory sampleTree (Path.ofString "/m") = .ok sampleMigrator.source ∧
      sampleMigrator.BodiesApart sampleTree ∧
      (∃ rows, sampleMigrator.options.HasRows referringContent rows) ∧
      sampleMigrator.options.stateIn referringContent = .ok ⟨some 1, false⟩ ∧
      Operation.up.destination? sampleMigrator.source 1 = some 2 ∧
      (sampleMigrator.carried sampleTree (sampleMigrator.source.stretch 1 2)
        referringContent).isSome ∧
      (sampleMigrator.perform sampleTree .up ⟨referringContent, none⟩).result =
        .error (.versionNotCleared .foreignKey) ∧
      (sampleMigrator.perform sampleTree .up ⟨referringContent, none⟩).connection =
        ⟨referringContent, none⟩ := by
  refine ⟨sample_opened, sample_apart, ?_, ?_⟩
  · exact ⟨[⟨1, [.integer 1, .integer 0]⟩], "schema_migrations", by decide +kernel⟩
  · decide +kernel

end SchemaMigration.Migrator
