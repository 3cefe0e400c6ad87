import SchemaMigration.Command
import SchemaMigration.Invocation
import SchemaMigration.Settings.Home

/-!
A whole run: from the words of a command line to what the files are afterwards, what is printed, and
the exit code.
-/

namespace SchemaMigration

/-- What a run finds around it. -/
structure Surroundings where
  /-- The value of the variable `SSTORE_HOME`. -/
  homeVariable : Option String := none
  /-- The home directory of the user. -/
  userHome : Option Path := none
  workingDirectory : Path
  deriving DecidableEq, Repr

/-- What a run leaves behind for whoever started it. -/
structure Report where
  code : Nat
  output : String := ""
  complaint : String := ""
  deriving DecidableEq, Repr

namespace Report

/-- Lines behind the first are indented like the first one. -/
def indented (text : String) : String :=
  "    " ++ "\n    ".intercalate (text.splitOn "\n")

/-- The report of an error. -/
def ofError (output : String) (error : Error) : Report :=
  { code := 1, output, complaint := "Error: " ++ error.message ++ "\n" }

/-- The report of an error in the configuration. -/
def ofSettingsError (error : Error) : Report :=
  { code := 1
    complaint := "Error: failed to load configuration\n\nCaused by:\n" ++ indented error.message ++
      "\n" }

/-- The help text. -/
def help : String :=
  "\n".intercalate
    ["Schema migrations for the sstore session database",
      "",
      "Usage: sstore [OPTIONS] <COMMAND>...",
      "",
      "Arguments:",
      "  <COMMAND>...  --migrate-up | --migrate-down | --migrate-goto <N> | --migrate-steps <N>" ++
        " | --migrate-version",
      "",
      "Options:",
      "      --home <HOME>                      Home directory holding the session database " ++
        "[default: ~/.sstore] [env: SSTORE_HOME=]",
      "      --config <CONFIG>                  Config file (YAML or TOML) instead of " ++
        "<home>/config.yml",
      "      --db-name <DB_NAME>                Session database file name inside the home " ++
        "directory",
      "      --migrations-dir <MIGRATIONS_DIR>  Migrations directory [default: ./db/migrations]",
      "      --json                             Print the resulting version as JSON",
      "  -v, --verbose                          Enable debug logging",
      "  -h, --help                             Print help",
      "  -V, --version                          Print version",
      ""]

/-- The report of a command line that asks for nothing to be done. -/
def ofUsage : Usage → Report
  | .help => { code := 0, output := help }
  | .version => { code := 0, output := "sstore 0.1.0\n" }
  | .misuse => { code := 2, complaint := "Usage: sstore [OPTIONS] <COMMAND>...\n" }

end Report

namespace Invocation

/-- The settings with what the command line says about them. -/
def adjust (invocation : Invocation) (settings : Settings) : Settings :=
  { settings with
    databaseName := invocation.databaseName.getD settings.databaseName
    migrationsDirectory := invocation.migrationsDirectory.getD settings.migrationsDirectory }

/-- The home directory of an invocation. -/
def chooseHome (invocation : Invocation) (surroundings : Surroundings) : Except Error Path :=
  Home.choose invocation.home (surroundings.homeVariable.map Path.ofString) surroundings.userHome

/-- Where everything is for an invocation, or the report of what hinders it. -/
def locations (invocation : Invocation) (surroundings : Surroundings) (tree : FileTree) :
    Except Report Locations :=
  match invocation.chooseHome surroundings with
  | .error e => .error (.ofError "" e)
  | .ok home =>
    match Settings.load tree home invocation.settingsFile with
    | .error e => .error (.ofSettingsError e)
    | .ok settings =>
      .ok (.resolve (invocation.adjust settings) home surroundings.workingDirectory)

/-- Carries out the command of an invocation. -/
def run (invocation : Invocation) (surroundings : Surroundings) (tree : FileTree) :
    FileTree × Report :=
  match invocation.locations surroundings tree with
  | .error report => (tree, report)
  | .ok locations =>
    let format := if invocation.json then OutputFormat.json else .text
    match locations.runOptions tree invocation.command format {} with
    | (tree, sink, .ok _) => (tree, { code := 0, output := sink.written })
    | (tree, sink, .error e) => (tree, .ofError sink.written e)

end Invocation

/-- Carries out a command line. -/
def runWords (words : List String) (surroundings : Surroundings) (tree : FileTree) :
    FileTree × Report :=
  match Invocation.read words surroundings.homeVariable with
  | .error usage => (tree, .ofUsage usage)
  | .ok invocation => invocation.run surroundings tree

end SchemaMigration
