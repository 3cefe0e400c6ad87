import SchemaMigration.Proofs.Migrator.Perform
import SchemaMigration.Proofs.Store.Blank

/-!
# What one step does

A step marks the store dirty, runs its body, and records the version it reached. `Migrator.StepRun`
lists the ways in which that can go, by what is committed after each of its statements: first the
content from before the step, then contents that are marked dirty with the target of the step, and
at the last statement of a finished step the clean target.

* `Migrator.applyStep_run`: every step from a clean content goes one of these ways.
-/

namespace SchemaMigration.Migrator

open Sql (Session Connection Database Outcome)
open StoreOptions (rowsOf)

/-- No body that the source can give in a tree names the version table. -/
def BodiesApart (migrator : Migrator) (tree : FileTree) : Prop :=
  ∀ version direction body, migrator.source.body? tree version direction = .ok (some body) →
    ¬ Sql.Mentions (Sql.Batch.tables body) migrator.options.table

/-- Only a version of the source has a body. -/
theorem body?_of_not_mem {source : Source} {tree : FileTree} {version : Version}
    {direction : Direction} (absent : version ∉ source.versions) :
    source.body? tree version direction = .ok none := by
  have missing : source.migrations.lookup version = none := by
    refine List.lookup_eq_none_iff.mpr fun entry member => bne_iff_ne.mpr fun same => absent ?_
    exact List.mem_map.mpr ⟨entry, member, same.symm⟩
  unfold Source.body? Source.file? Source.files
  rw [missing]
  cases direction <;> rfl

theorem contains_of_body {source : Source} {tree : FileTree} {version : Version}
    {direction : Direction} {body : String}
    (found : source.body? tree version direction = .ok (some body)) :
    version ∈ source.versions := by
  by_contra absent
  cases (body?_of_not_mem absent).symm.trans found

/-- Whether the body of one version and direction is apart from the version table. -/
def bodyApart (migrator : Migrator) (tree : FileTree) (version : Version) (direction : Direction) :
    Bool :=
  match migrator.source.body? tree version direction with
  | .ok (some body) => !decide (Sql.Mentions (Sql.Batch.tables body) migrator.options.table)
  | _ => true

theorem bodiesApart_iff {migrator : Migrator} {tree : FileTree} :
    migrator.BodiesApart tree ↔ ∀ version ∈ migrator.source.versions,
      migrator.bodyApart tree version .up ∧ migrator.bodyApart tree version .down := by
  constructor
  · intro apart version _
    have each : ∀ direction, migrator.bodyApart tree version direction = true := by
      intro direction
      unfold bodyApart
      split
      · rename_i body found
        simpa using apart version direction body found
      · rfl
    exact ⟨each .up, each .down⟩
  · intro each version direction body found
    have both := each version (contains_of_body found)
    have here : migrator.bodyApart tree version direction = true := by
      cases direction with
      | up => exact both.1
      | down => exact both.2
    unfold bodyApart at here
    rw [found] at here
    simpa using here

instance (migrator : Migrator) (tree : FileTree) : Decidable (migrator.BodiesApart tree) :=
  decidable_of_iff _ bodiesApart_iff.symm

/-- The committed content is marked dirty with a target. -/
def MarkedFor (options : StoreOptions) (target : Option Version) (connection : Connection) : Prop :=
  options.HasRows connection.committed (rowsOf target true)

/-- How a step can go, from a content without a transaction. -/
inductive StepRun (options : StoreOptions) (db : Database) (target : Option Version) :
    Outcome Error Unit → Prop
  /-- It failed before anything was committed. -/
  | stopped {e : Error} {quiet : List Connection}
      (unchanged : ∀ point ∈ quiet, point.committed = db) :
      StepRun options db target ⟨.error e, ⟨db, none⟩, quiet⟩
  /-- It failed after the mark was committed. -/
  | broken {e : Error} {quiet marked : List Connection} {stop : Connection}
      (unchanged : ∀ point ∈ quiet, point.committed = db)
      (dirty : ∀ point ∈ marked, MarkedFor options target point)
      (left : stop.Has (options.HasRows · (rowsOf target true))) :
      StepRun options db target ⟨.error e, stop, quiet ++ marked⟩
  /-- It recorded its target. -/
  | finished {quiet marked : List Connection} {after : Database}
      (unchanged : ∀ point ∈ quiet, point.committed = db)
      (dirty : ∀ point ∈ marked, MarkedFor options target point)
      (clean : options.HasRows after (rowsOf target false)) :
      StepRun options db target ⟨.ok (), ⟨after, none⟩, quiet ++ marked ++ [⟨after, none⟩]⟩

variable {migrator : Migrator} {tree : FileTree} {db : Database}

/-! ## The three kinds of step -/

theorem applyStep_of_unreadable {step : Step} {e : Error} {start : Connection}
    (unreadable : migrator.source.body? tree step.version step.direction = .error e) :
    migrator.applyStep tree step start = ⟨.error e, start, []⟩ := by
  unfold applyStep
  rw [unreadable]
  rfl

theorem applyStep_of_no_body {step : Step} {start : Connection}
    (absent : migrator.source.body? tree step.version step.direction = .ok none) :
    migrator.applyStep tree step start = migrator.options.record step.target false start := by
  unfold applyStep
  rw [absent]

theorem applyStep_of_body {step : Step} {body : String} {start : Connection}
    (found : migrator.source.body? tree step.version step.direction = .ok (some body)) :
    migrator.applyStep tree step start =
      (migrator.options.record step.target true >>= fun _ =>
        Session.mapError (.stepFailed step.version step.direction) (migrator.options.run body) >>=
          fun _ => migrator.options.record step.target false) start := by
  unfold applyStep
  rw [found]

/-! ## How a step goes -/

theorem hasTable_of_rows {options : StoreOptions} {rows : List Sql.Row}
    (has : options.HasRows db rows) : options.HasTable db :=
  ⟨rows, has⟩

/-- Recording from where a body left the connection: it is refused, and what is there stays, or the
state is recorded. -/
theorem record_after {options : StoreOptions} {rows : List Sql.Row} {start : Connection}
    (has : start.Has (options.HasRows · rows)) (version : Option Version) (dirty : Bool) :
    (∃ e trail, options.record version dirty start = ⟨.error e, start, trail⟩ ∧
      ∀ point ∈ trail, options.HasRows point.committed rows) ∨
    ∃ trail after, options.record version dirty start =
        ⟨.ok (), ⟨after, none⟩, trail ++ [⟨after, none⟩]⟩ ∧
      (∀ point ∈ trail, options.HasRows point.committed rows) ∧
      options.HasRows after (rowsOf version dirty) := by
  obtain ⟨committed, working⟩ := start
  cases working with
  | some content =>
      obtain ⟨e, trail, refused, same⟩ := StoreOptions.record_within content version dirty
      refine .inl ⟨e, trail, refused, fun point member => ?_⟩
      rw [same point member]
      exact has.committed
  | none =>
      have table := hasTable_of_rows has.committed
      have atomic := StoreOptions.record_atomic table version dirty
      generalize run : options.record version dirty ⟨committed, none⟩ = outcome at atomic
      cases atomic with
      | refused quiet =>
          refine .inl ⟨_, _, rfl, fun point member => ?_⟩
          rw [quiet point member]
          exact has.committed
      | done quiet =>
          refine .inr ⟨_, _, rfl, fun point member => ?_, table.recorded version dirty⟩
          rw [quiet point member]
          exact has.committed

/-- From a marked content a body and the recording after it leave the mark until the clean target is
committed at the last statement. -/
theorem marked_run {options : StoreOptions} {target : Option Version} {body : String}
    (f : Error → Error) (apart : ¬ Sql.Mentions (Sql.Batch.tables body) options.table)
    (marked : options.HasRows db (rowsOf target true)) :
    (∃ e stop trail, (Session.mapError f (options.run body) >>= fun _ =>
        options.record target false) ⟨db, none⟩ = ⟨.error e, stop, trail⟩ ∧
      (∀ point ∈ trail, MarkedFor options target point) ∧
      stop.Has (options.HasRows · (rowsOf target true))) ∨
    ∃ trail after, (Session.mapError f (options.run body) >>= fun _ =>
        options.record target false) ⟨db, none⟩ =
          ⟨.ok (), ⟨after, none⟩, trail ++ [⟨after, none⟩]⟩ ∧
      (∀ point ∈ trail, MarkedFor options target point) ∧
      options.HasRows after (rowsOf target false) := by
  have keeps : Session.Keeps (Connection.Has (options.HasRows · (rowsOf target true)))
      (Session.mapError f (options.run body)) :=
    Session.Keeps.mapError f (StoreOptions.run_keeps
      (fun _ notNamed => StoreOptions.execute_keeps_rows
        (StoreOptions.numbered_rowsOf target true) notNamed) apart)
  have start : Connection.Has (options.HasRows · (rowsOf target true)) ⟨db, none⟩ :=
    .outside marked
  obtain ⟨middleHas, points⟩ := keeps _ start
  cases ran : Session.mapError f (options.run body) ⟨db, none⟩ with
  | mk result middle bodyTrail =>
      rw [ran] at middleHas points
      have dirty : ∀ point ∈ bodyTrail, MarkedFor options target point :=
        fun point member => (points point member).committed
      cases result with
      | error e =>
          rw [Session.bind_of_error ran]
          exact .inl ⟨e, middle, bodyTrail, rfl, dirty, middleHas⟩
      | ok _ =>
          rw [Session.bind_of_ok ran]
          rcases record_after middleHas target false with
            ⟨e, trail, refused, same⟩ | ⟨trail, after, done, same, clean⟩
          · rw [refused]
            refine .inl ⟨e, middle, bodyTrail ++ trail, rfl, fun point member => ?_, middleHas⟩
            exact (List.mem_append.mp member).elim (dirty point) (same point)
          · rw [done]
            refine .inr ⟨bodyTrail ++ trail, after, ?_, fun point member => ?_, clean⟩
            · rw [List.append_assoc]
            · exact (List.mem_append.mp member).elim (dirty point) (same point)

/-- **How a step goes.** Whatever its body does, short of naming the version table, the mark is
committed before the body starts, and a clean state only at the last statement. -/
theorem applyStep_run (step : Step) (apart : migrator.BodiesApart tree)
    (has : migrator.options.HasTable db) :
    StepRun migrator.options db step.target (migrator.applyStep tree step ⟨db, none⟩) := by
  cases read : migrator.source.body? tree step.version step.direction with
  | error e =>
      rw [applyStep_of_unreadable read]
      exact .stopped fun _ member => nomatch member
  | ok body? =>
      cases body? with
      | none =>
          rw [applyStep_of_no_body read]
          have atomic := StoreOptions.record_atomic has step.target false
          generalize migrator.options.record step.target false ⟨db, none⟩ = outcome at atomic
          cases atomic with
          | refused quiet => exact .stopped quiet
          | @done trail quiet =>
              have shape := @StepRun.finished migrator.options db step.target trail [] _ quiet
                (fun _ member => nomatch member) (has.recorded step.target false)
              rw [List.append_nil] at shape
              exact shape
      | some body =>
          rw [applyStep_of_body read]
          have notNamed := apart _ _ _ read
          have atomic := StoreOptions.record_atomic has step.target true
          generalize first : migrator.options.record step.target true ⟨db, none⟩ = outcome at atomic
          cases atomic with
          | refused quiet =>
              rw [Session.bind_of_error first]
              exact .stopped quiet
          | @done trail quiet =>
              rw [Session.bind_of_ok first]
              let middle : Connection := ⟨migrator.options.recorded step.target true db, none⟩
              have marked := has.recorded step.target true
              rcases marked_run (.stepFailed step.version step.direction) notNamed marked with
                ⟨e, stop, rest, failed, dirty, left⟩ | ⟨rest, after, done, dirty, clean⟩
              · rw [failed]
                rw [List.append_assoc]
                refine .broken quiet (fun point member => ?_) left
                rcases List.mem_append.mp member with same | later
                · rw [List.mem_singleton.mp same]
                  exact marked
                · exact dirty point later
              · rw [done]
                have shape : trail ++ [middle] ++ (rest ++ [⟨after, none⟩]) =
                    trail ++ ([middle] ++ rest) ++ [⟨after, none⟩] := by
                  simp only [List.append_assoc]
                rw [shape]
                refine .finished quiet (fun point member => ?_) clean
                rcases List.mem_append.mp member with same | later
                · rw [List.mem_singleton.mp same]
                  exact marked
                · exact dirty point later

/-! ## A sample directory -/

deriving instance DecidableEq for Except

/-- A regular file of the sample directory. -/
def sampleFile (name text : String) : Place × Node :=
  ([Bytes.ofString "m", Bytes.ofString name], .file (.plain (Bytes.ofString text)))

/-- Two versions, each with a body that makes a table and a body that drops it. -/
def sampleTree : FileTree where
  nodes := [([Bytes.ofString "m"], .directory),
    sampleFile "1_a.up.sql" "CREATE TABLE a (x INTEGER);",
    sampleFile "1_a.down.sql" "DROP TABLE a;",
    sampleFile "2_b.up.sql" "CREATE TABLE b (y TEXT);",
    sampleFile "2_b.down.sql" "DROP TABLE b;"]

/-- The files of a version of the sample directory. -/
def sampleFiles (version : Version) (identifier : String) : Version × VersionFiles :=
  let path (direction : Direction) := Path.ofString
    ("/m/" ++ toString version ++ "_" ++ identifier ++ "." ++ direction.name ++ ".sql")
  (version, {
    up := some ⟨version, identifier, .up, path .up⟩
    down := some ⟨version, identifier, .down, path .down⟩ })

/-- A migrator along the sample directory. -/
def sampleMigrator : Migrator where
  source := ⟨Path.ofString "/m", [sampleFiles 1 "a", sampleFiles 2 "b"]⟩
  options := {}

/-- The content of a store that was set up on an empty database. -/
def sampleContent : Database :=
  (StoreOptions.setUp {} {}).connection.committed

theorem sample_opened :
    Source.openDirectory sampleTree (Path.ofString "/m") = .ok sampleMigrator.source := by
  decide +kernel

theorem sample_apart : sampleMigrator.BodiesApart sampleTree := by
  decide +kernel

theorem sample_blank : sampleMigrator.options.Blank sampleContent := by
  have empty : Database.WellFormed {} := ⟨List.Pairwise.nil, fun _ member => nomatch member⟩
  have blank : StoreOptions.Blank {} (StoreOptions.setUp {} {}).connection.content :=
    StoreOptions.setUp_blank rfl (fun _ member => nomatch member) empty (by decide +kernel)
  have content : (StoreOptions.setUp {} {}).connection.content = sampleContent := by
    decide +kernel
  rw [← content]
  exact blank

end SchemaMigration.Migrator
