import SchemaMigration.FileTree
import SchemaMigration.Settings.Text

/-!
The home directory and the configuration file in it.
-/

namespace SchemaMigration

namespace Home

/-- The home directory of a run: the one asked for, else the one that the environment names, unless
that is empty, else a directory of its own in the home of the user. -/
def choose (asked environment user : Option Path) : Except Error Path :=
  match asked, environment.filter (·.bytes ≠ []), user with
  | some home, _, _ => .ok home
  | none, some home, _ => .ok home
  | none, none, some user => .ok (user.join (Path.ofString ".sstore"))
  | none, none, none => .error .homeUnknown

/-- The names of configuration files, the preferred first. -/
def fileNames : List String :=
  ["config.yml", "config.yaml", "config.toml"]

/-- The configuration file of a run: the one asked for, else the first of those in the home
directory that is a file. -/
def settingsFile? (tree : FileTree) (home : Path) (asked : Option Path) : Option Path :=
  asked.or <| (fileNames.map fun name => home.join (Path.ofString name)).find? tree.isFile

end Home

namespace Settings

/-- The settings in a text, by the extension of the file that it is from. -/
def ofText (extension text : String) : Except Error Settings :=
  if extension = "yml" ∨ extension = "yaml" then
    match ofYaml? text with
    | some settings => .ok settings
    | none => .error .yaml
  else if extension = "toml" then
    match ofToml? text with
    | some settings => .ok settings
    | none => .error .toml
  else .error (.configExtension extension)

/-- Reads the settings in a file. An extension that is not UTF-8 counts as none. -/
def readFile (tree : FileTree) (path : Path) : Except Error Settings :=
  match tree.readText path with
  | .error fault => .error (.configUnreadable path fault)
  | .ok text => ofText ((path.extension?.bind Bytes.text?).getD "") text

/-- The settings of a run: those in its configuration file, or the usual ones without a file. -/
def load (tree : FileTree) (home : Path) (asked : Option Path) : Except Error Settings :=
  match Home.settingsFile? tree home asked with
  | none => .ok {}
  | some path => readFile tree path

end Settings

end SchemaMigration
