import SchemaMigration.Command
import SchemaMigration.Proofs.DatabaseUrl
import SchemaMigration.Proofs.FileTree.Paths
import SchemaMigration.Proofs.Store.SettingUp

/-!
# Opening a migrator

What a command comes across before it does its work: the home directory, the source, the place of
the database file, and what is in it.

* `Locations.makeMigrator_eq_ok_iff`: when a migrator is made, and how it leaves the tree.
* `Locations.withMigrator_of_opens`: the file holds what the work committed; nothing else changes.
-/

namespace SchemaMigration

open Sql (Session Connection Database)

/-! ## Opening the store -/

/-- A store opens in a file: the path leads to a place for it, what is there is a database or
nothing, and it is set up as a store. -/
structure Store.Ready (options : StoreOptions) (tree : FileTree) (path : Path) (place : Place)
    (content : Database) : Prop where
  leads : tree.storePlace path = some place
  holds : contentAt tree place = .ok content
  setUp : (options.setUp ⟨content, none⟩).result = .ok ()

/-- A store that is open in a file. -/
def Store.inFile (options : StoreOptions) (place : Place) (content : Database) : Store :=
  ⟨.file place, ⟨content, none⟩, options⟩

/-- A store opens under a path for a file exactly if it is ready there, and then only the file is
written. -/
theorem Store.openPath_eq_ok_iff {tree opened : FileTree} {path : Path} {options : StoreOptions}
    {store : Store} (forFile : ¬ (path.bytes = [] ∨ path = Path.ofString ":memory:")) :
    openPath tree path options = (opened, .ok store) ↔
      path.bytes.findIdx? (· == 0) = none ∧ ∃ place content, Ready options tree path place content ∧
        opened = tree.put place (.file (.database (options.prepared content))) ∧
        store = inFile options place (options.prepared content) := by
  rw [openPath]
  cases path.bytes.findIdx? (· == 0) with
  | some position => exact iff_of_false nofun fun opens => nomatch opens.1
  | none =>
      simp only [if_neg forFile, true_and]
      constructor
      · intro opens
        split at opens
        · cases opens
        · next place leads =>
          split at opens
          · cases opens
          · next content holds =>
            have connected := options.connection_setUp content
            simp only [ofConnection, save] at opens
            cases ready : (options.setUp ⟨content, none⟩).result with
            | error e => rw [ready] at opens; cases opens
            | ok value =>
                rw [ready, connected] at opens
                cases opens
                exact ⟨place, content, ⟨leads, holds, ready⟩, rfl, rfl⟩
      · rintro ⟨place, content, ready, rfl, rfl⟩
        simp only [ready.leads, ready.holds, ofConnection, ready.setUp, options.connection_setUp]
        rfl

/-- A path that can be handed over as a URL and opened as a file. -/
structure Path.Portable (path : Path) : Prop where
  absolute : path.isAbsolute = true
  text : ∃ text, Utf8.decode (ofNames true path.names).bytes = .ok text
  noNul : (ofNames true path.names).bytes.findIdx? (· == 0) = none

/-- An absolute path is no store in memory. -/
theorem Path.ofNames_forFile (names : List Bytes) :
    ¬ ((ofNames true names).bytes = [] ∨ ofNames true names = ofString ":memory:") := by
  rintro (empty | memory)
  · cases empty
  · have bytes : separator :: [separator].intercalate names = Bytes.ofString ":memory:" :=
      congrArg Path.bytes memory
    have first : (Bytes.ofString ":memory:").head? = some 0x3A := by decide
    rw [← bytes] at first
    cases first

/-- The database URL of an absolute path opens the file at that path. -/
theorem DatabaseUrl.openStore_eq_ok_iff {tree opened : FileTree} {path : Path}
    {options : StoreOptions} {store : Store} (absolute : path.isAbsolute = true) :
    openStore tree (written path.names options) = (opened, .ok store) ↔
      path.Portable ∧ ∃ place content, Store.Ready options tree path place content ∧
        opened = tree.put place (.file (.database (options.prepared content))) ∧
        store = .inFile options place (options.prepared content) := by
  have leads : tree.storePlace (Path.ofNames true path.names) = tree.storePlace path :=
    FileTree.storePlace_congr ((Path.isAbsolute_iff.mpr ⟨_, rfl⟩).trans absolute.symm)
      (Path.names_ofNames fun _ => Path.isName_of_mem_names)
  have ready : ∀ place content,
    Store.Ready options tree (Path.ofNames true path.names) place content ↔
      Store.Ready options tree path place content := fun place content =>
    ⟨fun ready => ⟨leads ▸ ready.leads, ready.holds, ready.setUp⟩,
      fun ready => ⟨leads ▸ ready.leads, ready.holds, ready.setUp⟩⟩
  rw [openStore, read_written_eq]
  cases decoded : Utf8.decode (Path.ofNames true path.names).bytes with
  | error fault =>
      refine iff_of_false (fun same => by cases same) ?_
      rintro ⟨⟨-, ⟨text, isText⟩, -⟩, -⟩
      cases decoded.symm.trans isText
  | ok text =>
      simp only [Store.openPath_eq_ok_iff (Path.ofNames_forFile path.names), ready]
      refine and_congr_left' ?_
      exact ⟨fun noNul => ⟨absolute, ⟨text, decoded⟩, noNul⟩, fun portable => portable.noNul⟩

namespace Locations

variable {locations : Locations} {tree opened base : FileTree} {source : Source} {place : Place}
  {content : Database}

theorem openMigrator_eq_ok_iff {sourceUrl databaseUrl : String} {migrator : Migrator}
    {store : Store} :
    openMigrator tree sourceUrl databaseUrl = (opened, .ok (migrator, store)) ↔
      ∃ source, Source.openUrl tree sourceUrl = .ok source ∧
        DatabaseUrl.openStore tree databaseUrl = (opened, .ok store) ∧
        migrator = ⟨source, store.options⟩ := by
  rw [openMigrator]
  constructor
  · intro made
    split at made
    · cases made
    · next source sourceOpened =>
      split at made
      · cases made
      · next storeOpened =>
        cases made
        exact ⟨source, sourceOpened, storeOpened, rfl⟩
  · rintro ⟨source, sourceOpened, storeOpened, rfl⟩
    rw [sourceOpened, storeOpened]

/-- Making a migrator: both URLs, the home directory, and then the source and the store. -/
theorem makeMigrator_eq_openMigrator {migrator : Migrator} {store : Store} :
    locations.makeMigrator tree = (opened, .ok (migrator, store)) ↔
      ∃ sourceUrl databaseUrl base, locations.sourceUrl = .ok sourceUrl ∧
        locations.databaseUrl = .ok databaseUrl ∧
        tree.createDirectories locations.home = (base, .ok ()) ∧
        openMigrator base sourceUrl databaseUrl = (opened, .ok (migrator, store)) := by
  rw [makeMigrator]
  constructor
  · intro made
    split at made
    · cases made
    · cases made
    · next sourceUrl databaseUrl sourceWritten databaseWritten =>
      split at made
      · cases made
      · next base homeMade =>
        split at made
        · next both =>
          cases made
          exact ⟨sourceUrl, databaseUrl, base, sourceWritten, databaseWritten, homeMade, both⟩
        · cases made
  · rintro ⟨sourceUrl, databaseUrl, base, sourceWritten, databaseWritten, homeMade, both⟩
    simp only [sourceWritten, databaseWritten, homeMade, both]

theorem databaseUrl_eq_ok_iff {url : String} :
    locations.databaseUrl = .ok url ↔
      locations.database.isAbsolute = true ∧
        url = DatabaseUrl.written locations.database.names locations.options := by
  by_cases absolute : locations.database.isAbsolute = true
  · rw [databaseUrl_of_isAbsolute absolute]
    exact ⟨fun same => ⟨absolute, (Except.ok.inj same).symm⟩, fun same => same.2 ▸ rfl⟩
  · have none : DatabaseUrl.write? locations.database locations.options = none := by
      rw [DatabaseUrl.write?, Url.encodePath?, if_neg absolute]
      rfl
    rw [databaseUrl, none]
    exact iff_of_false (fun same => by cases same) fun same => absolute same.1

/-- What making the migrator of the locations comes across: the tree with the home directory, the
source, the place of the database file, and the database in it. -/
structure Opens (locations : Locations) (tree base : FileTree) (source : Source) (place : Place)
    (content : Database) : Prop where
  portable : locations.database.Portable
  homeMade : tree.createDirectories locations.home = (base, .ok ())
  source : ∃ url, locations.sourceUrl = .ok url ∧ Source.openUrl base url = .ok source
  store : Store.Ready locations.options base locations.database place content

/-- **When a migrator is made.** The home directory is made, the source URL opens a source, and the
store opens in a file; only that file is written. -/
theorem makeMigrator_eq_ok_iff {migrator : Migrator} {store : Store} :
    locations.makeMigrator tree = (opened, .ok (migrator, store)) ↔
      ∃ base source place content, locations.Opens tree base source place content ∧
        opened = base.put place (.file (.database (locations.options.prepared content))) ∧
        migrator = ⟨source, locations.options⟩ ∧
        store = .inFile locations.options place (locations.options.prepared content) := by
  rw [makeMigrator_eq_openMigrator]
  constructor
  · rintro ⟨sourceUrl, databaseUrl, base, sourceWritten, databaseWritten, homeMade, both⟩
    obtain ⟨absolute, rfl⟩ := databaseUrl_eq_ok_iff.mp databaseWritten
    obtain ⟨source, sourceOpened, storeOpened, rfl⟩ := openMigrator_eq_ok_iff.mp both
    obtain ⟨portable, place, content, ready, rfl, rfl⟩ :=
      (DatabaseUrl.openStore_eq_ok_iff absolute).mp storeOpened
    exact ⟨base, source, place, content,
      ⟨portable, homeMade, ⟨sourceUrl, sourceWritten, sourceOpened⟩, ready⟩, rfl, rfl, rfl⟩
  · rintro ⟨base, source, place, content, opens, rfl, rfl, rfl⟩
    obtain ⟨sourceUrl, sourceWritten, sourceOpened⟩ := opens.source
    have storeOpened := (DatabaseUrl.openStore_eq_ok_iff opens.portable.absolute).mpr
      ⟨opens.portable, place, content, opens.store, rfl, rfl⟩
    exact ⟨sourceUrl, _, base, sourceWritten,
      databaseUrl_eq_ok_iff.mpr ⟨opens.portable.absolute, rfl⟩, opens.homeMade,
      openMigrator_eq_ok_iff.mpr ⟨source, sourceOpened, storeOpened, rfl⟩⟩

/-! ## Working on what was opened -/

variable {α : Type}

/-- The work on an open store leaves in the file what it committed, and nothing else. -/
theorem withMigrator_of_opens (opens : locations.Opens tree base source place content)
    (session : FileTree → Migrator → Session Error α) :
    let opened := base.put place (.file (.database (locations.options.prepared content)))
    let outcome := session opened ⟨source, locations.options⟩
      ⟨locations.options.prepared content, none⟩
    locations.withMigrator tree session =
      (base.put place (.file (.database outcome.connection.committed)), outcome.result) := by
  have made := makeMigrator_eq_ok_iff.mpr ⟨base, source, place, content, opens, rfl, rfl, rfl⟩
  simp only [withMigrator, made, Store.inFile, Store.save, FileTree.put_put]

/-- Work that succeeds was done on an open store. -/
theorem of_withMigrator_ok {session : FileTree → Migrator → Session Error α} {after : FileTree}
    {value : α} (done : locations.withMigrator tree session = (after, .ok value)) :
    ∃ base source place content, locations.Opens tree base source place content := by
  rw [withMigrator] at done
  cases made : locations.makeMigrator tree with
  | mk opened result =>
      cases result with
      | error e => rw [made] at done; cases done
      | ok pair =>
          obtain ⟨base, source, place, content, opens, -⟩ := makeMigrator_eq_ok_iff.mp made
          exact ⟨base, source, place, content, opens⟩

/-- An operation that fails ends the command, unless there was only nothing to do. -/
theorem migrateAndReport_of_error {operation : Operation} {after : FileTree} {e : Error}
    (failed : locations.migrate tree operation = (after, .error e)) (reason : e ≠ .noChange)
    (format : OutputFormat) (sink : Sink) :
    locations.migrateAndReport tree operation format sink = (after, sink, .error e) := by
  rw [migrateAndReport, failed]
  split
  · next same => cases same
  · next same => cases same; exact absurd rfl reason
  · next same => cases same; rfl

end Locations

end SchemaMigration
