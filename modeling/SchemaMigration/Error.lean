import SchemaMigration.IoFault
import SchemaMigration.Path
import SchemaMigration.Sql.Fault
import SchemaMigration.Url.Fault
import SchemaMigration.Version

/-!
Everything that can go wrong with a migration run, by cause. `Error.kind` sorts the causes, and
`Error.message` words them; each kind leads its messages with the same words.
-/

namespace SchemaMigration

/-- The kinds of errors. -/
inductive ErrorKind where
  | config
  | database
  | source
  | migration
  | noChange
  | dirty
  | shortLimit
  | invalidCommand
  | notFound
  | io
  | serialization
  | other
  deriving DecidableEq, Repr

/-- The words that lead the messages of a kind. -/
def ErrorKind.heading : ErrorKind → String
  | config => "configuration error: "
  | database => "database error: "
  | source => "migration source error: "
  | migration => "migration error: "
  | invalidCommand => "invalid migration command: "
  | notFound => "not found: "
  | io => "io error: "
  | serialization => "serialization error: "
  | noChange | dirty | shortLimit | other => ""

/-- What can go wrong. -/
inductive Error where
  -- configuration
  | homeUnknown
  | configUnreadable (path : Path) (fault : IoFault)
  | yaml
  | toml
  | configExtension (extension : String)
  | relativeMigrations (directory : Path)
  | relativeDatabase (path : Path)
  | homeNotCreated (home : Path) (fault : IoFault)
  -- database
  | unsupportedDatabaseUrl (url : String)
  | databaseUrlWithoutPath (url : String)
  | databasePathNotUtf8 (url : String) (fault : Utf8.Fault)
  | unwrappedNotBool (value : String)
  | databasePathWithNul (position : Nat)
  | databaseNotOpened (path : Path)
  | pragmasRefused (fault : Sql.Fault)
  | tableName (name : String)
  | versionTableRefused (fault : Sql.Fault)
  | versionUnreadable (fault : Sql.Fault)
  | versionCellType (type : String) (index : Nat) (column : String)
  | versionTooLarge (version : Version)
  | transactionRefused (fault : Sql.Fault)
  | versionNotCleared (fault : Sql.Fault)
  | versionNotRecorded (fault : Sql.Fault)
  | versionNotCommitted (fault : Sql.Fault)
  | bodyFailed (fault : Sql.Fault)
  | bodyNotCommitted (fault : Sql.Fault)
  | versionNotReported (cause : Error)
  -- source
  | sourceUrl (url : String) (fault : Url.Fault)
  | sourceScheme (scheme : String)
  | sourceMissing (directory : Path)
  | duplicateFile (first second : Path)
  | versionNotNumber (name : String)
  | versionOutOfRange (name : String)
  | bodyUnreadable (path : Path) (fault : IoFault)
  -- migration
  | stepFailed (version : Version) (direction : Direction) (cause : Error)
  | versionNotInSource (version : Version) (directory : Path)
  | migratorNotMade (sourceUrl : String) (database : Path) (cause : Error)
  -- outcomes of an operation
  | noChange
  | dirty (version : Option Version)
  | shortLimit (missing : Nat)
  | targetNotInSource (version : Version)
  -- commands
  | noCommand
  | missingArgument (option : String)
  | gotoArgument (argument : String)
  | stepsArgument (argument : String)
  | unknownCommand (option : String)
  | extraArgument (argument : String)
  -- output
  | outputRefused (reason : String)
  | jsonRefused (reason : String)
  /-- An error of a kind in words of its own. -/
  | custom (kind : ErrorKind) (text : String)
  deriving DecidableEq, Repr

namespace Error

/-- The kind of an error. -/
def kind : Error → ErrorKind
  | homeUnknown | configUnreadable .. | yaml | toml | configExtension _ | relativeMigrations _
  | relativeDatabase _ | homeNotCreated .. => .config
  | unsupportedDatabaseUrl _ | databaseUrlWithoutPath _ | databasePathNotUtf8 ..
  | unwrappedNotBool _ | databasePathWithNul _ | databaseNotOpened _ | pragmasRefused _
  | tableName _ | versionTableRefused _ | versionUnreadable _ | versionCellType ..
  | versionTooLarge _ | transactionRefused _ | versionNotCleared _ | versionNotRecorded _
  | versionNotCommitted _ | bodyFailed _ | bodyNotCommitted _ | versionNotReported _ => .database
  | sourceUrl .. | sourceScheme _ | sourceMissing _ | duplicateFile .. | versionNotNumber _
  | versionOutOfRange _ | bodyUnreadable .. => .source
  | stepFailed .. | versionNotInSource .. | migratorNotMade .. => .migration
  | noChange => .noChange
  | dirty _ => .dirty
  | shortLimit _ => .shortLimit
  | targetNotInSource _ => .notFound
  | noCommand | missingArgument _ | gotoArgument _ | stepsArgument _ | unknownCommand _
  | extraArgument _ => .invalidCommand
  | outputRefused _ => .io
  | jsonRefused _ => .serialization
  | custom kind _ => kind

/-- The text of an error. -/
def message : Error → String
  | homeUnknown =>
    ErrorKind.config.heading ++ "cannot determine home directory; set SSTORE_HOME"
  | configUnreadable path fault =>
    ErrorKind.config.heading ++ "read error for " ++ path.display ++ ": " ++ fault.message
  | yaml => ErrorKind.config.heading ++ "YAML parse error:"
  | toml => ErrorKind.config.heading ++ "TOML parse error:"
  | configExtension extension =>
    ErrorKind.config.heading ++ "unsupported config extension: " ++ extension
  | relativeMigrations directory =>
    ErrorKind.config.heading ++ "migrations directory must be absolute: " ++ directory.display
  | relativeDatabase path =>
    ErrorKind.config.heading ++ "database path must be absolute: " ++ path.display
  | homeNotCreated home fault =>
    ErrorKind.config.heading ++ "failed to create home directory " ++ home.display ++ ": " ++
      fault.message
  | unsupportedDatabaseUrl url =>
    ErrorKind.database.heading ++ "unsupported database url: " ++ url
  | databaseUrlWithoutPath url =>
    ErrorKind.database.heading ++ "database url has no path: " ++ url
  | databasePathNotUtf8 url fault =>
    ErrorKind.database.heading ++ "invalid database path in " ++ url ++ ": " ++ fault.message
  | unwrappedNotBool value =>
    ErrorKind.database.heading ++ "invalid x-no-tx-wrap value: " ++ value
  | databasePathWithNul position =>
    ErrorKind.database.heading ++ "failed to open database: " ++
      "nul byte found in provided data at position: " ++ toString position
  | databaseNotOpened path =>
    ErrorKind.database.heading ++ "failed to open database: unable to open database file: " ++
      path.display
  | pragmasRefused fault =>
    ErrorKind.database.heading ++ "failed to set pragmas: " ++ fault.message
  | tableName name =>
    ErrorKind.database.heading ++ "invalid migrations table name: " ++ name
  | versionTableRefused fault =>
    ErrorKind.database.heading ++ "failed to create version table: " ++ fault.message
  | versionUnreadable fault =>
    ErrorKind.database.heading ++ "failed to read schema version: " ++ fault.message
  | versionCellType type index column =>
    ErrorKind.database.heading ++ "failed to read schema version: Invalid column type " ++ type ++
      " at index: " ++ toString index ++ ", name: " ++ column
  | versionTooLarge version =>
    ErrorKind.database.heading ++ "version " ++ toString version ++ " out of range"
  | transactionRefused fault =>
    ErrorKind.database.heading ++ "failed to start transaction: " ++ fault.message
  | versionNotCleared fault =>
    ErrorKind.database.heading ++ "failed to clear schema version: " ++ fault.message
  | versionNotRecorded fault =>
    ErrorKind.database.heading ++ "failed to record schema version: " ++ fault.message
  | versionNotCommitted fault =>
    ErrorKind.database.heading ++ "failed to commit schema version: " ++ fault.message
  | bodyFailed fault => ErrorKind.database.heading ++ fault.message
  | bodyNotCommitted fault =>
    ErrorKind.database.heading ++ "failed to commit migration: " ++ fault.message
  | versionNotReported cause =>
    ErrorKind.database.heading ++ "error getting db version: " ++ cause.message
  | sourceUrl url fault =>
    ErrorKind.source.heading ++ "invalid source url " ++ url ++ ": " ++ fault.message
  | sourceScheme scheme => ErrorKind.source.heading ++ "unsupported source scheme: " ++ scheme
  | sourceMissing directory =>
    ErrorKind.source.heading ++ "migrations directory not found: " ++ directory.display
  | duplicateFile first second =>
    ErrorKind.source.heading ++ "duplicate migration file: " ++ first.display ++ " and " ++
      second.display
  | versionNotNumber name =>
    ErrorKind.source.heading ++ "invalid version in " ++ name ++
      ": number too large to fit in target type"
  | versionOutOfRange name => ErrorKind.source.heading ++ "version out of range in " ++ name
  | bodyUnreadable path fault =>
    ErrorKind.source.heading ++ "failed to read " ++ path.display ++ ": " ++ fault.message
  | stepFailed version direction cause =>
    ErrorKind.migration.heading ++ toString version ++ "/" ++ direction.name ++ " failed: " ++
      cause.message
  | versionNotInSource version directory =>
    ErrorKind.migration.heading ++ "no migration found for version " ++ toString version ++
      " in " ++ directory.display
  | migratorNotMade url database cause =>
    ErrorKind.migration.heading ++ "making migration [" ++ url ++ "] db[" ++ database.display ++
      "]: " ++ cause.message
  | noChange => "no change"
  | dirty version => "database is dirty, version=" ++ Version.display version
  | shortLimit missing => "limit " ++ toString missing ++ " short"
  | targetNotInSource version =>
    ErrorKind.notFound.heading ++ "no migration for version " ++ toString version
  | noCommand => ErrorKind.invalidCommand.heading ++ "no command given"
  | missingArgument option =>
    ErrorKind.invalidCommand.heading ++ option ++ " requires an argument"
  | gotoArgument argument =>
    ErrorKind.invalidCommand.heading ++ "--migrate-goto expects a version, got " ++ argument
  | stepsArgument argument =>
    ErrorKind.invalidCommand.heading ++ "--migrate-steps expects a non-zero count, got " ++ argument
  | unknownCommand option => ErrorKind.invalidCommand.heading ++ option
  | extraArgument argument =>
    ErrorKind.invalidCommand.heading ++ "unexpected argument " ++ argument
  | outputRefused reason => ErrorKind.io.heading ++ reason
  | jsonRefused reason => ErrorKind.serialization.heading ++ reason
  | custom kind text => kind.heading ++ text

/-- Whether an error only says that there was nothing to do. -/
def isNoChange (error : Error) : Bool :=
  error == .noChange

end Error

end SchemaMigration
