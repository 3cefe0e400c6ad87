import SchemaMigration.Proofs.Command.Opening
import SchemaMigration.Proofs.Migrator.Lasting
import SchemaMigration.Proofs.Source.Rescan

/-!
# Separate commands and one session

A command opens the source and the store, does its work, and closes them again. Operations that are
carried out as so many commands come to the same as operations of one migrator that is made once:
closing and opening in between changes nothing, whatever the results of the operations are.

* `Locations.migrateEach`: operations as commands of their own;
* `Migrator.performEach`: operations of one migrator;
* `Locations.opens_again`: what was opened opens again, on whatever an operation left;
* `Locations.migrateEach_eq_session`: both come to the same.
-/

namespace SchemaMigration

open Sql (Session Connection Database Index)

/-! ## Two ways to carry out operations -/

/-- Carries out operations one after the other, each as a command of its own. -/
def Locations.migrateEach (locations : Locations) :
    FileTree → List Operation → FileTree × List (Except Error Unit)
  | tree, [] => (tree, [])
  | tree, operation :: rest =>
    let (tree, result) := locations.migrate tree operation
    let (tree, results) := locations.migrateEach tree rest
    (tree, result :: results)

/-- Runs a program and goes on whatever its result is. -/
def Sql.Session.attempt {ε α : Type} (program : Session ε α) : Session ε (Except ε α) :=
  fun start =>
    let outcome := program start
    { outcome with result := .ok outcome.result }

/-- Carries out operations of one migrator one after the other. -/
def Migrator.performEach (migrator : Migrator) (tree : FileTree) :
    List Operation → Session Error (List (Except Error Unit))
  | [] => pure []
  | operation :: rest => do
    let result ← Session.attempt (migrator.perform tree operation)
    let results ← migrator.performEach tree rest
    return result :: results

/-- The first operation, and then the others on what it left. -/
theorem Migrator.performEach_cons {migrator : Migrator} {tree : FileTree} {start stop : Connection}
    {operation : Operation} {rest : List Operation} {results : List (Except Error Unit)}
    {trail : List Connection}
    (done : migrator.performEach tree rest (migrator.perform tree operation start).connection =
      ⟨.ok results, stop, trail⟩) :
    migrator.performEach tree (operation :: rest) start =
      ⟨.ok ((migrator.perform tree operation start).result :: results), stop,
          (migrator.perform tree operation start).trail ++ trail⟩ := by
  have first : Session.attempt (migrator.perform tree operation) start =
      ⟨.ok (migrator.perform tree operation start).result,
          (migrator.perform tree operation start).connection,
          (migrator.perform tree operation start).trail⟩ := rfl
  rw [performEach, Session.bind_of_ok first, Session.bind_of_ok done, Session.pure_apply,
    List.append_nil]

namespace Locations

variable {locations : Locations} {tree base : FileTree} {source : Source} {place : Place}
  {content db : Database} {index : Index}

/-- A tree with a database in the file at a place. -/
abbrev holding (base : FileTree) (place : Place) (db : Database) : FileTree :=
  base.put place (.file (.database db))

theorem holding_holding (first second : Database) :
    holding (holding base place first) place second = holding base place second :=
  FileTree.put_put _ _

/-! ## Opening again -/

/-- **What was opened opens again**, whatever content with a standing version table is in the file,
if the path still leads to the file and the source is still that of the directory. -/
theorem opens_again (opens : locations.Opens tree base source place content) {first : Database}
    (leads : ((holding base place first).storePlace locations.database).isSome = true)
    (passed : ∀ here name, base.stat source.directory = .ok (here, .directory) →
      place = here ++ [name] → Source.Passed name)
    (nameable : locations.options.Nameable) (settled : locations.options.Settled index db) :
    locations.Opens (holding base place db) (holding base place db) source place db := by
  have takesFile := (FileTree.of_storePlace opens.store.leads).2
  have stands : (holding base place first).node? place = some (.file (.database first)) :=
    FileTree.node?_put_self takesFile.inside
  have ledBefore : (holding base place first).storePlace locations.database = some place := by
    rcases FileTree.storePlace_put_file opens.store.leads (.database first) with led | ⟨-, lost⟩
    · exact led
    · rw [lost] at leads
      cases leads
  have led : (holding base place db).storePlace locations.database = some place := by
    rcases FileTree.storePlace_put_file ledBefore (.database db) with led | ⟨vacant, -⟩
    · rw [FileTree.put_put] at led
      exact led
    · cases vacant.symm.trans stands
  have holds : Store.contentAt (holding base place db) place = .ok db := by
    rw [Store.contentAt, FileTree.node?_put_self takesFile.inside]
  obtain ⟨url, written, opened⟩ := opens.source
  have openedAgain : Source.openUrl (holding base place db) url = .ok source := by
    obtain ⟨directory, named, scanned⟩ := Sql.bind_eq_ok.mp opened
    have isDirectory : source.directory = directory := Source.directory_of_openDirectory scanned
    refine Sql.bind_eq_ok.mpr ⟨directory, named, ?_⟩
    exact Source.openDirectory_put_file takesFile (.database db) (isDirectory ▸ passed) scanned
  exact {
    portable := opens.portable
    homeMade := FileTree.createDirectories_again opens.homeMade takesFile
    source := ⟨url, written, openedAgain⟩
    store := ⟨led, holds, by rw [StoreOptions.setUp_of_settled nameable settled]⟩ }

/-- Bodies are the same whatever database is in the file. -/
theorem body?_holding (inside : place ≠ []) (first second : Database) (source : Source)
    (version : Version) (direction : Direction) :
    source.body? (holding base place first) version direction =
      source.body? (holding base place second) version direction := by
  have holds : (holding base place second).HoldsDatabase place :=
    ⟨second, FileTree.node?_put_self inside⟩
  have texts := FileTree.readText_put_database holds first
  rw [FileTree.put_put] at texts
  rw [Source.body?, Source.body?]
  cases source.file? version direction with
  | none => rfl
  | some file => simp only [texts]

/-! ## Both ways come to the same -/

theorem migrate_of_opens (opens : locations.Opens tree base source place content)
    (operation : Operation) :
    locations.migrate tree operation =
      (let opened := holding base place (locations.options.prepared content)
        let outcome := Migrator.perform ⟨source, locations.options⟩ opened operation
          ⟨locations.options.prepared content, none⟩
        (holding base place outcome.connection.committed, outcome.result)) :=
  withMigrator_of_opens opens fun tree migrator => migrator.perform tree operation

/-- A command on a store that was set up before does just what its operation does. -/
theorem migrate_again (again : locations.Opens (holding base place db) (holding base place db)
      source place db) (nameable : locations.options.Nameable)
    (settled : locations.options.Settled index db) (operation : Operation) :
    locations.migrate (holding base place db) operation =
      (let outcome := Migrator.perform ⟨source, locations.options⟩ (holding base place db)
          operation ⟨db, none⟩
       (holding base place outcome.connection.committed, outcome.result)) := by
  have same := StoreOptions.prepared_of_settled nameable settled
  rw [migrate_of_opens again, same]
  simp only [holding_holding]

/-- **Commands and a session.** By induction on the operations: after each of them the file holds
what the session has committed, and no transaction is open in the session. -/
theorem migrateEach_holding
    (again : ∀ db, locations.options.Settled index db →
      locations.Opens (holding base place db) (holding base place db) source place db)
    (inside : place ≠ []) (nameable : locations.options.Nameable)
    (leaves :
      Migrator.LeavesStanding ⟨source, locations.options⟩ (holding base place content) index)
    (operations : List Operation) (settled : locations.options.Settled index db) :
    ∃ results last trail,
      Migrator.performEach ⟨source, locations.options⟩ (holding base place content) operations
          ⟨db, none⟩ = ⟨.ok results, ⟨last, none⟩, trail⟩ ∧
        locations.migrateEach (holding base place db) operations =
          (holding base place last, results) := by
  induction operations generalizing db with
  | nil => exact ⟨[], db, [], rfl, rfl⟩
  | cons operation rest ih =>
      have samePerformed :
        Migrator.perform ⟨source, locations.options⟩ (holding base place db) operation =
          Migrator.perform ⟨source, locations.options⟩ (holding base place content) operation :=
        Migrator.perform_congr (body?_holding inside db content source) operation
      obtain ⟨after, left, settledAfter⟩ := Migrator.perform_of_settled leaves settled operation
      have command := migrate_again (again db settled) nameable settled operation
      simp only [samePerformed, left] at command
      obtain ⟨results, last, trail, session, commands⟩ := ih settledAfter
      rw [← left] at session
      refine ⟨_, last, _, Migrator.performEach_cons session, ?_⟩
      simp only [migrateEach, command, commands]

/-- **Separate commands equal one session.** Where a migrator is made, at least one operation is
carried out, and the path still leads to the database file once it is there: the results are the
same and so are the files afterwards, if the file is no migration of the directory, and bodies
define neither the version table nor its index, nor the table that the index is on, and leave no
transaction open. Operations may fail and leave the store dirty. -/
theorem migrateEach_eq_session {opened : FileTree} {migrator : Migrator} {store : Store}
    (made : locations.makeMigrator tree = (opened, .ok (migrator, store)))
    (leads : (opened.storePlace locations.database).isSome = true)
    (passed : ∀ here name, opened.stat migrator.source.directory = .ok (here, .directory) →
      store.medium = .file (here ++ [name]) → Source.Passed name)
    (leaves : ∀ index, store.connection.content.index? locations.options.indexName = some index →
      migrator.LeavesStanding opened index)
    {operations : List Operation} (nonempty : operations ≠ []) :
    locations.withMigrator tree (fun tree migrator => migrator.performEach tree operations) =
      ((locations.migrateEach tree operations).1,
          .ok (locations.migrateEach tree operations).2) := by
  obtain ⟨base, source, place, found, opens, rfl, rfl, rfl⟩ := makeMigrator_eq_ok_iff.mp made
  obtain ⟨nameable, index, settled⟩ := StoreOptions.settled_prepared opens.store.setUp
  have takesFile := (FileTree.of_storePlace opens.store.leads).2
  have passedBefore : ∀ here name, base.stat source.directory = .ok (here, .directory) →
      place = here ++ [name] → Source.Passed name := fun here name found isPlace =>
    passed here name (FileTree.stat_put_file takesFile _ found) (congrArg Medium.file isPlace)
  have again : ∀ db, locations.options.Settled index db →
      locations.Opens (holding base place db) (holding base place db) source place db :=
    fun db => opens_again opens leads passedBefore nameable
  obtain ⟨results, last, trail, session, commands⟩ := migrateEach_holding again takesFile.inside
    nameable (leaves index settled.index) operations settled
  have left := withMigrator_of_opens opens fun tree migrator =>
    migrator.performEach tree operations
  simp only [session] at left
  -- The first command opens what the session opens, and leaves what it would leave there again.
  have first : locations.migrateEach tree operations =
      locations.migrateEach (holding base place (locations.options.prepared found))
        operations := by
    cases operations with
    | nil => exact absurd rfl nonempty
    | cons operation rest =>
        have same := (migrate_of_opens opens operation).trans
          (migrate_again (again _ settled) nameable settled operation).symm
        rw [migrateEach, migrateEach, same]
  rw [left, first, commands]

/-- The sample directory, with a store beside it. -/
def sampleLocations : Locations where
  home := Path.ofString "/"
  database := Path.ofString "/session.db"
  migrations := Path.ofString "/m"
  options := {}

/-- The sample tree once the store is there. -/
def sampleOpened : FileTree :=
  holding Migrator.sampleTree [Bytes.ofString "session.db"] Migrator.sampleContent

/-- The store, opened. -/
def sampleStore : Store :=
  .inFile {} [Bytes.ofString "session.db"] Migrator.sampleContent

/-- The migrator of the sample directory, which its URL names with a slash at the end. -/
def sampleMade : Migrator where
  source := { Migrator.sampleMigrator.source with directory := Path.ofString "/m/" }
  options := {}

theorem sample_made :
    sampleLocations.makeMigrator Migrator.sampleTree =
      (sampleOpened, .ok (sampleMade, sampleStore)) := by
  decide +kernel

/-- All the way up, to a version that is not there, and down again, as commands and in a session. -/
theorem migrateEach_eq_session_sample :
    sampleLocations.makeMigrator Migrator.sampleTree =
        (sampleOpened, .ok (sampleMade, sampleStore)) ∧
      (sampleLocations.migrateEach Migrator.sampleTree [.up, .goto 7, .down]).2 =
        [.ok (), .error (.targetNotInSource 7), .ok ()] ∧
      (sampleLocations.withMigrator Migrator.sampleTree fun tree migrator =>
          migrator.performEach tree [.up, .goto 7, .down]).2 =
        .ok [.ok (), .error (.targetNotInSource 7), .ok ()] := by
  have leads : (sampleOpened.storePlace sampleLocations.database).isSome = true := by
    decide +kernel
  have passed : ∀ here name,
      sampleOpened.stat sampleMade.source.directory = .ok (here, .directory) →
        sampleStore.medium = .file (here ++ [name]) → Source.Passed name := by
    intro here name found isPlace
    have directory : sampleOpened.stat sampleMade.source.directory =
        .ok ([Bytes.ofString "m"], .directory) := by decide +kernel
    cases directory.symm.trans found
    have lengths := congrArg List.length (Medium.file.inj isPlace)
    rw [List.length_append, List.length_singleton, List.length_singleton,
      List.length_singleton] at lengths
    omega
  have leaves : ∀ index,
      sampleStore.connection.content.index? sampleLocations.options.indexName = some index →
        sampleMade.LeavesStanding sampleOpened index := by
    intro index found
    have isIndex : sampleStore.connection.content.index? sampleLocations.options.indexName =
        some ⟨"schema_migrations_version_unique", "schema_migrations", ["version"], true⟩ := by
      decide +kernel
    cases isIndex.symm.trans found
    exact Migrator.leavesStanding_of_wrapped rfl (by decide +kernel)
  have session : (sampleLocations.withMigrator Migrator.sampleTree fun tree migrator =>
      migrator.performEach tree [.up, .goto 7, .down]).2 =
      .ok [.ok (), .error (.targetNotInSource 7), .ok ()] := by
    decide +kernel
  have same := congrArg Prod.snd (migrateEach_eq_session sample_made leads passed leaves
    (List.cons_ne_nil .up [.goto 7, .down]))
  exact ⟨sample_made, Except.ok.inj (same.symm.trans session), session⟩

/-- The store is opened by a path that leads through its file by name and back out of it. -/
def sampleDetour : Locations :=
  { sampleLocations with database := Path.ofString "/session.db/y/../../session.db" }

/-- A store whose versions are referred to. They are kept unique by an index of another name, since
another table has the index of that name. -/
def sampleTaken : Database where
  tables := [StoreOptions.versionTable "schema_migrations" [],
    { name := "foo", columns := [⟨"a", .integer, false, .null⟩] },
    { name := "x", columns := [⟨"v", .integer, false, .null⟩],
      foreignKeys := [⟨["v"], "schema_migrations", ["version"], true⟩] }]
  indexes := [⟨"j", "schema_migrations", ["version"], true⟩,
    ⟨"schema_migrations_version_unique", "foo", ["a"], false⟩]

/-- A directory that drops the other table, and then the index of another name. -/
def sampleDropping : FileTree where
  nodes := [([Bytes.ofString "session.db"], .file (.database sampleTaken)),
    ([Bytes.ofString "m"], .directory),
    Migrator.sampleFile "1_a.up.sql" "DROP TABLE foo;",
    Migrator.sampleFile "2_b.up.sql" "DROP INDEX j;"]

/-- Which operations of a session succeed. -/
def sessionSuccesses (locations : Locations) (tree : FileTree) (operations : List Operation) :
    Option (List Bool) :=
  (locations.withMigrator tree fun tree migrator =>
    migrator.performEach tree operations).2.toOption.map (·.map Except.isOk)

/-- Where separate commands are not one session. A path through the file is a path to it only until
the file is there, so that the second command finds no store. Where another table with the index of
that name is dropped, the next command puts the index on the version table. And a session without
operations still makes the store. -/
theorem migrateEach_ne_session :
    ((sampleDetour.migrateEach Migrator.sampleTree [.up, .down]).2.map Except.isOk = [true, false] ∧
        sessionSuccesses sampleDetour Migrator.sampleTree [.up, .down] = some [true, true]) ∧
      ((sampleLocations.migrateEach sampleDropping [.steps 1, .steps 1]).2.map Except.isOk =
          [true, true] ∧
        sessionSuccesses sampleLocations sampleDropping [.steps 1, .steps 1] =
          some [true, false]) ∧
      (sampleLocations.migrateEach Migrator.sampleTree []).1 ≠
        (sampleLocations.withMigrator Migrator.sampleTree fun tree migrator =>
            migrator.performEach tree []).1 := by
  refine ⟨⟨?_, ?_⟩, ⟨?_, ?_⟩, ?_⟩ <;> decide +kernel

end Locations

end SchemaMigration
