import SchemaMigration.DatabaseUrl

/-!
Settings, and the places they lead to once the home directory and the working directory are known.
-/

namespace SchemaMigration

/-- What a configuration file can say, with what holds when it does not. -/
structure Settings where
  /-- The database file, seen from the home directory. -/
  databaseName : String := "session.db"
  /-- The migrations directory, seen from the working directory. -/
  migrationsDirectory : Path := Path.ofString "db/migrations"
  options : StoreOptions := {}
  deriving DecidableEq, Repr

/-- Where everything is. -/
structure Locations where
  home : Path
  database : Path
  migrations : Path
  options : StoreOptions
  deriving DecidableEq, Repr

namespace Locations

/-- The places that settings lead to. -/
def resolve (settings : Settings) (home workingDirectory : Path) : Locations :=
  let home := workingDirectory.join home
  { home
    database := home.join (Path.ofString settings.databaseName)
    migrations := workingDirectory.join settings.migrationsDirectory
    options := settings.options }

/-- The URL of the migrations directory. -/
def sourceUrl (locations : Locations) : Except Error String :=
  match Url.ofDirectory? locations.migrations with
  | some url => .ok url
  | none => .error (.relativeMigrations locations.migrations)

/-- The URL of the database with its options. -/
def databaseUrl (locations : Locations) : Except Error String :=
  match DatabaseUrl.write? locations.database locations.options with
  | some url => .ok url
  | none => .error (.relativeDatabase locations.database)

end Locations

end SchemaMigration
