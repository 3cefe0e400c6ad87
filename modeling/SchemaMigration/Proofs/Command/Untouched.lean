import SchemaMigration.Proofs.Command.Opening
import SchemaMigration.Proofs.FileTree.Paving
import SchemaMigration.Proofs.Migrator.Refusal
import SchemaMigration.Proofs.Store.Furnishing

/-!
# What a command leaves that cannot do its work

A command that finds no source, or is refused for the state of the database or for its target, fails
and touches nothing but what it needed to find that out: the home directory, and behind a source
also the database file with an empty version table.

* `Locations.Sourceless`: the source does not open once the home directory is there.
* `Command.Refused`: what a command on a content is refused for.
* `Locations.runOptions_untouched`: what is left then.
-/

namespace SchemaMigration

open Sql (Session Database)

/-- A set-up that succeeds furnishes the content. -/
theorem StoreOptions.furnished_prepared {options : StoreOptions} {content : Database}
    (done : (options.setUp ⟨content, none⟩).result = .ok ()) :
    options.Furnished content (options.prepared content) := by
  have goes := options.setUp_cases content
  have connected := options.connection_setUp content
  generalize options.setUp ⟨content, none⟩ = outcome at goes done connected
  cases goes with
  | refused whole => cases done
  | stranded half => cases done
  | done whole furnished => cases connected; exact furnished

/-! ## Refused commands -/

/-- What a command on a content is refused for. Having nothing to do is no reason for a command, and
asking for the version needs a state that can be read and is clean. -/
inductive Command.Refused (migrator : Migrator) (db : Database) : Command → Error → Prop
  | operation {operation : Operation} {e : Error} (refused : migrator.Refused db operation e)
    (reason : e ≠ .noChange) : Refused migrator db (.migrate operation) e
  | unreadable {e : Error} (failed : migrator.options.stateIn db = .error e) :
    Refused migrator db .version (.versionNotReported e)
  | dirty {version : Option Version}
    (marked : migrator.options.stateIn db = .ok ⟨version, true⟩) :
    Refused migrator db .version (.dirty version)

namespace Locations

variable {locations : Locations} {tree base : FileTree} {source : Source} {place : Place}
  {content : Database} {command : Command} {e : Error}

/-- Carries out a command and reports the state. -/
def carryOut (locations : Locations) (tree : FileTree) :
    Command → OutputFormat → Sink → FileTree × Sink × Except Error SchemaState
  | .migrate operation => locations.migrateAndReport tree operation
  | .version => locations.report tree

theorem runOptions_of_read {options : List String} (valid : Command.read options = .ok command) :
    locations.runOptions tree options = locations.carryOut tree command := by
  funext format sink
  rw [runOptions, valid]
  cases command <;> rfl

/-! ## No source -/

/-- The source does not open once the home directory is there. -/
def Sourceless (locations : Locations) (tree : FileTree) : Prop :=
  ∀ base url, tree.createDirectories locations.home = (base, .ok ()) →
    locations.sourceUrl = .ok url → ∃ e, Source.openUrl base url = .error e

theorem sourceUrl_error (failed : locations.sourceUrl = .error e) :
    e = .relativeMigrations locations.migrations := by
  rw [sourceUrl] at failed
  cases written : Url.ofDirectory? locations.migrations with
  | some url => rw [written] at failed; cases failed
  | none => rw [written] at failed; cases failed; rfl

theorem databaseUrl_error (failed : locations.databaseUrl = .error e) :
    e = .relativeDatabase locations.database := by
  rw [databaseUrl] at failed
  cases written : DatabaseUrl.write? locations.database locations.options with
  | some url => rw [written] at failed; cases failed
  | none => rw [written] at failed; cases failed; rfl

/-- Without a source no migrator is made, and no store is opened. -/
theorem makeMigrator_of_sourceless (sourceless : locations.Sourceless tree) :
    ∃ after e, locations.makeMigrator tree = (after, .error e) ∧ e ≠ .noChange ∧
      tree.Paved locations.home after := by
  cases sourceWritten : locations.sourceUrl with
  | error e =>
      refine ⟨tree, e, by rw [makeMigrator, sourceWritten], ?_, .refl tree _⟩
      rw [sourceUrl_error sourceWritten]
      rintro ⟨⟩
  | ok url =>
      cases databaseWritten : locations.databaseUrl with
      | error e =>
          refine ⟨tree, e, by rw [makeMigrator, sourceWritten, databaseWritten], ?_, .refl tree _⟩
          rw [databaseUrl_error databaseWritten]
          rintro ⟨⟩
      | ok databaseUrl =>
          have paved := tree.createDirectories_paved locations.home
          cases homeMade : tree.createDirectories locations.home with
          | mk base result =>
              rw [homeMade] at paved
              cases result with
              | error fault =>
                  refine ⟨base, .homeNotCreated locations.home fault, ?_, by rintro ⟨⟩, paved⟩
                  rw [makeMigrator, sourceWritten, databaseWritten, homeMade]
              | ok value =>
                  obtain ⟨e, unopened⟩ := sourceless base url homeMade sourceWritten
                  refine ⟨base, .migratorNotMade url locations.database e, ?_, by rintro ⟨⟩, paved⟩
                  simp only [makeMigrator, sourceWritten, databaseWritten, homeMade, openMigrator,
                    unopened]

theorem withMigrator_of_sourceless (sourceless : locations.Sourceless tree) :
    ∃ after e, e ≠ .noChange ∧ tree.Paved locations.home after ∧
      ∀ {α : Type} (session : FileTree → Migrator → Session Error α),
        locations.withMigrator tree session = (after, .error e) := by
  obtain ⟨after, e, unmade, reason, paved⟩ := makeMigrator_of_sourceless sourceless
  refine ⟨after, e, reason, paved, fun session => ?_⟩
  rw [withMigrator, unmade]

/-- Without a source every command fails, and only directories are made. -/
theorem carryOut_of_sourceless (sourceless : locations.Sourceless tree) (command : Command) :
    ∃ after e, tree.Paved locations.home after ∧
      ∀ format sink, locations.carryOut tree command format sink = (after, sink, .error e) := by
  obtain ⟨after, e, reason, paved, fails⟩ := withMigrator_of_sourceless sourceless
  cases command with
  | migrate operation =>
      exact ⟨after, e, paved, migrateAndReport_of_error (fails _) reason⟩
  | version =>
      refine ⟨after, .versionNotReported e, paved, fun format sink => ?_⟩
      have unread : locations.state tree = (after, .error e) := fails _
      rw [carryOut, report, unread]

/-! ## Refusals -/

/-- What a refused command leaves: the file holds the content with an empty version table. -/
theorem carryOut_of_refused (opens : locations.Opens tree base source place content)
    (refused : command.Refused ⟨source, locations.options⟩ (locations.options.prepared content) e)
    (format : OutputFormat) (sink : Sink) :
    locations.carryOut tree command format sink =
      (base.put place (.file (.database (locations.options.prepared content))), sink,
          .error e) := by
  have state : locations.state tree =
      (base.put place (.file (.database (locations.options.prepared content))),
          locations.options.stateIn (locations.options.prepared content)) :=
    withMigrator_of_opens opens fun _ migrator => migrator.options.state
  cases refused with
  | @operation operation _ refused reason =>
      obtain ⟨url, -, opened⟩ := opens.source
      obtain ⟨directory, -, scanned⟩ := Sql.bind_eq_ok.mp opened
      have unmoved : ∀ tree, Migrator.perform ⟨source, locations.options⟩ tree operation
          ⟨locations.options.prepared content, none⟩ =
            ⟨.error e, ⟨locations.options.prepared content, none⟩, []⟩ := fun _ =>
        Migrator.perform_of_refused (Source.openDirectory_ordered scanned) refused
      have done := withMigrator_of_opens opens fun tree migrator => migrator.perform tree operation
      simp only [unmoved] at done
      exact migrateAndReport_of_error done reason format sink
  | unreadable failed => rw [carryOut, report, state, failed]
  | dirty marked =>
      rw [carryOut, report, state, marked]
      rfl

/-- **A command that cannot do its work touches no more than it must.** Let options name a command.
If the source does not open once the home directory is there, or the command does not get that far,
it fails and writes nothing, files stay as they are, and what is new are directories for the home
directory. If the migrator opens and the command is refused, it fails with the reason and writes
nothing, and the only file that changes is that of the database: it holds what it held, every table
with its rows, and an empty version table and its index where they were missing. -/
theorem runOptions_untouched (locations : Locations) (tree : FileTree) {options : List String}
    {command : Command} (valid : Command.read options = .ok command) :
    (locations.Sourceless tree →
      ∃ after e, tree.Paved locations.home after ∧
        (∀ place file, after.node? place = some (.file file) ↔
          tree.node? place = some (.file file)) ∧
        ∀ format sink,
          locations.runOptions tree options format sink = (after, sink, .error e)) ∧
    ∀ base source place content e, locations.Opens tree base source place content →
      command.Refused ⟨source, locations.options⟩ (locations.options.prepared content) e →
      tree.Paved locations.home base ∧
        locations.options.Furnished content (locations.options.prepared content) ∧
        ∀ format sink, locations.runOptions tree options format sink =
          (base.put place (.file (.database (locations.options.prepared content))), sink,
              .error e) := by
  rw [runOptions_of_read valid]
  constructor
  · intro sourceless
    obtain ⟨after, e, paved, fails⟩ := carryOut_of_sourceless sourceless command
    exact ⟨after, e, paved, fun _ _ => paved.file_iff, fails⟩
  · intro base source place content e opens refused
    have paved := tree.createDirectories_paved locations.home
    rw [opens.homeMade] at paved
    exact ⟨paved, StoreOptions.furnished_prepared opens.store.setUp,
      carryOut_of_refused opens refused⟩

/-- The sample directory, and a home directory that is not there. -/
def sampleHomeless : Locations where
  home := Path.ofString "/h/s"
  database := Path.ofString "/h/s/session.db"
  migrations := Path.ofString "/m"
  options := {}

/-- The sample tree with that home directory. -/
def sampleHoused : FileTree :=
  (Migrator.sampleTree.put [Bytes.ofString "h"] .directory).put
    [Bytes.ofString "h", Bytes.ofString "s"] .directory

/-- A version that is not there is asked for, without the sample directory and with it. -/
theorem runOptions_untouched_sample :
    (∃ after e, FileTree.Paved {} sampleHomeless.home after ∧
      (∀ place file, after.node? place = some (.file file) ↔
        FileTree.node? {} place = some (.file file)) ∧
      ∀ format sink, sampleHomeless.runOptions {} ["--migrate-goto", "7"] format sink =
        (after, sink, .error e)) ∧
    Migrator.sampleTree.Paved sampleHomeless.home sampleHoused ∧
      StoreOptions.Furnished {} {} Migrator.sampleContent ∧
      ∀ format sink,
        sampleHomeless.runOptions Migrator.sampleTree ["--migrate-goto", "7"] format sink =
          (sampleHoused.put [Bytes.ofString "h", Bytes.ofString "s", Bytes.ofString "session.db"]
              (.file (.database Migrator.sampleContent)), sink, .error (.targetNotInSource 7)) := by
  have valid : Command.read ["--migrate-goto", "7"] = .ok (.migrate (.goto 7)) := by
    decide +kernel
  have sourceless : sampleHomeless.Sourceless {} := by
    intro base url homeMade written
    have bare : FileTree.createDirectories {} sampleHomeless.home =
        ((FileTree.put {} [Bytes.ofString "h"] .directory).put
            [Bytes.ofString "h", Bytes.ofString "s"] .directory, .ok ()) := by decide +kernel
    have writes : sampleHomeless.sourceUrl = .ok "file:///m/" := by decide +kernel
    cases bare.symm.trans homeMade
    cases writes.symm.trans written
    exact ⟨.sourceMissing (Path.ofString "/m/"), by decide +kernel⟩
  have opens : sampleHomeless.Opens Migrator.sampleTree sampleHoused
      { Migrator.sampleMigrator.source with directory := Path.ofString "/m/" }
      [Bytes.ofString "h", Bytes.ofString "s", Bytes.ofString "session.db"] {} :=
    { portable := ⟨by decide +kernel, ⟨"/h/s/session.db", by decide +kernel⟩, by decide +kernel⟩
      homeMade := by decide +kernel
      source := ⟨"file:///m/", by decide +kernel, by decide +kernel⟩
      store := ⟨by decide +kernel, by decide +kernel, by decide +kernel⟩ }
  have stands : Migrator.Stands
      ⟨{ Migrator.sampleMigrator.source with directory := Path.ofString "/m/" },
        sampleHomeless.options⟩ (sampleHomeless.options.prepared {}) none :=
    ⟨by decide +kernel, by rintro _ ⟨⟩⟩
  exact ⟨(runOptions_untouched sampleHomeless {} valid).1 sourceless,
    (runOptions_untouched sampleHomeless Migrator.sampleTree valid).2 _ _ _ _ _ opens
      (.operation (.nowhere stands (by decide +kernel)) (by rintro ⟨⟩))⟩

/-- A source that is opened a second time, to report the state, may not open: making the home
directory made the directory of the migrations, and then the database in it has the name of a
migration, whose version is out of range. -/
theorem runOptions_database_as_migration :
    let m := Bytes.ofString "m"
    let name := "9223372036854775808_x.up.sql"
    let locations : Locations :=
      { home := Path.ofString "/m", database := Path.ofString ("/m/" ++ name),
        migrations := Path.ofString "/m", options := {} }
    locations.sourceUrl = .ok "file:///m/" ∧
      Source.openUrl {} "file:///m/" = .error (.sourceMissing (Path.ofString "/m/")) ∧
      FileTree.node? {} [m, Bytes.ofString name] = none ∧
      locations.runOptions {} ["--migrate-up"] .text {} =
        ((FileTree.put {} [m] .directory).put [m, Bytes.ofString name]
              (.file (.database Migrator.sampleContent)), {},
            .error (.versionNotReported (.migratorNotMade "file:///m/" locations.database
              (.versionOutOfRange name)))) := by
  decide +kernel

end Locations

end SchemaMigration
