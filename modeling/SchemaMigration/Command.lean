import SchemaMigration.Migrator
import SchemaMigration.Settings

/-!
Commands: reading them from options, carrying them out on the places that settings lead to, and
reporting the version that results. Each command opens the source and the store, does its work, and
closes them again.
-/

namespace SchemaMigration

/-- What a user can ask for. -/
inductive Command where
  | migrate (operation : Operation)
  | version
  deriving DecidableEq, Repr

namespace Command

/-- Reads the option that names a command; the answer is the command and how many options it
takes. -/
def readFirst (option : String) (rest : List String) : Except Error (Command × List String) :=
  if option = "--migrate-up" then .ok (.migrate .up, rest)
  else if option = "--migrate-down" then .ok (.migrate .down, rest)
  else if option = "--migrate-version" then .ok (.version, rest)
  else if option = "--migrate-goto" then
    match rest with
    | [] => .error (.missingArgument option)
    | argument :: rest =>
      match Numeral.unsigned? argument.toList with
      | some target => .ok (.migrate (.goto target), rest)
      | none => .error (.gotoArgument argument)
  else if option = "--migrate-steps" then
    match rest with
    | [] => .error (.missingArgument option)
    | argument :: rest =>
      match (Numeral.signed? argument.toList).filter (· ≠ 0) with
      | some count => .ok (.migrate (.steps count), rest)
      | none => .error (.stepsArgument argument)
  else .error (.unknownCommand option)

/-- Reads a command from options, all of which it has to use. -/
def read : List String → Except Error Command
  | [] => .error .noCommand
  | option :: rest =>
    match readFirst option rest with
    | .error e => .error e
    | .ok (command, []) => .ok command
    | .ok (_, extra :: _) => .error (.extraArgument extra)

/-- The options that name a command. -/
def render : Command → List String
  | .migrate .up => ["--migrate-up"]
  | .migrate .down => ["--migrate-down"]
  | .migrate (.goto target) => ["--migrate-goto", toString target]
  | .migrate (.steps count) => ["--migrate-steps", toString count]
  | .version => ["--migrate-version"]

end Command

/-- How a version is reported. -/
inductive OutputFormat where
  | text
  | json
  deriving DecidableEq, Repr

/-- Where a report goes: what was written so far, and why nothing can be written if so. -/
structure Sink where
  written : String := ""
  refusal : Option String := none
  deriving DecidableEq, Repr

/-- The line that reports a state. -/
def SchemaState.line (state : SchemaState) : OutputFormat → String
  | .text => "[db] " ++ state.text ++ "\n"
  | .json => state.json ++ "\n"

/-- Writes the line that reports a state. -/
def Sink.report (sink : Sink) (format : OutputFormat) (state : SchemaState) :
    Sink × Except Error Unit :=
  match sink.refusal with
  | none => ({ sink with written := sink.written ++ state.line format }, .ok ())
  | some reason =>
    (sink, .error (match format with
      | .text => .outputRefused reason
      | .json => .jsonRefused reason))

namespace Locations

/-- Opens the source and the store behind the two URLs, the source first. -/
def openMigrator (tree : FileTree) (sourceUrl databaseUrl : String) :
    FileTree × Except Error (Migrator × Store) :=
  match Source.openUrl tree sourceUrl with
  | .error e => (tree, .error e)
  | .ok source =>
    match DatabaseUrl.openStore tree databaseUrl with
    | (tree, .error e) => (tree, .error e)
    | (tree, .ok store) => (tree, .ok ({ source, options := store.options }, store))

/-- Makes the home directory and opens the migrator of the locations. -/
def makeMigrator (locations : Locations) (tree : FileTree) :
    FileTree × Except Error (Migrator × Store) :=
  match locations.sourceUrl, locations.databaseUrl with
  | .error e, _ => (tree, .error e)
  | .ok _, .error e => (tree, .error e)
  | .ok sourceUrl, .ok databaseUrl =>
    match tree.createDirectories locations.home with
    | (tree, .error fault) => (tree, .error (.homeNotCreated locations.home fault))
    | (tree, .ok ()) =>
      match openMigrator tree sourceUrl databaseUrl with
      | (tree, .ok opened) => (tree, .ok opened)
      | (tree, .error e) => (tree, .error (.migratorNotMade sourceUrl locations.database e))

/-- Makes the migrator, runs a session on its store, and closes the store, by which an open
transaction is lost. -/
def withMigrator {α : Type} (locations : Locations) (tree : FileTree)
    (session : FileTree → Migrator → Sql.Session Error α) : FileTree × Except Error α :=
  match locations.makeMigrator tree with
  | (tree, .error e) => (tree, .error e)
  | (tree, .ok (migrator, store)) =>
    let outcome := session tree migrator store.connection
    match store.medium with
    | .memory => (tree, outcome.result)
    | .file place => (Store.save tree place outcome.connection, outcome.result)

/-- Carries out an operation. -/
def migrate (locations : Locations) (tree : FileTree) (operation : Operation) :
    FileTree × Except Error Unit :=
  locations.withMigrator tree fun tree migrator => migrator.perform tree operation

/-- The recorded state. -/
def state (locations : Locations) (tree : FileTree) : FileTree × Except Error SchemaState :=
  locations.withMigrator tree fun _ migrator => migrator.options.state

/-- Reports the recorded state, which has to be clean. -/
def report (locations : Locations) (tree : FileTree) (format : OutputFormat) (sink : Sink) :
    FileTree × Sink × Except Error SchemaState :=
  match locations.state tree with
  | (tree, .error e) => (tree, sink, .error (.versionNotReported e))
  | (tree, .ok state) =>
    if state.dirty then (tree, sink, .error (.dirty state.version))
    else
      match sink.report format state with
      | (sink, .error e) => (tree, sink, .error e)
      | (sink, .ok ()) => (tree, sink, .ok state)

/-- Carries out an operation, for which having nothing to do is fine, and reports the state. -/
def migrateAndReport (locations : Locations) (tree : FileTree) (operation : Operation)
    (format : OutputFormat) (sink : Sink) : FileTree × Sink × Except Error SchemaState :=
  match locations.migrate tree operation with
  | (tree, .ok ()) | (tree, .error .noChange) => locations.report tree format sink
  | (tree, .error e) => (tree, sink, .error e)

/-- Applies all migrations and reports the state. -/
def bringUpToDate (locations : Locations) (tree : FileTree) (format : OutputFormat)
    (sink : Sink) : FileTree × Sink × Except Error SchemaState :=
  locations.migrateAndReport tree .up format sink

/-- Carries out the command that options name and reports the state. -/
def runOptions (locations : Locations) (tree : FileTree) (options : List String)
    (format : OutputFormat) (sink : Sink) : FileTree × Sink × Except Error SchemaState :=
  match Command.read options with
  | .error e => (tree, sink, .error e)
  | .ok (.migrate operation) => locations.migrateAndReport tree operation format sink
  | .ok .version => locations.report tree format sink

end Locations

end SchemaMigration
