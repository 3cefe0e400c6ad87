import SchemaMigration.Settings
import SchemaMigration.Toml.Document
import SchemaMigration.Yaml.Document

/-!
Settings in the text of a configuration file, which is YAML or TOML. In both, a file names the
settings that it changes; names that mean nothing here are passed over.
-/

namespace SchemaMigration

/-- What a file says about one setting: how that reads where a text is wanted, and how where a yes
or no is. -/
structure SettingValue where
  text? : Option String := none
  flag? : Option Bool := none
  deriving DecidableEq, Repr

namespace Settings

/-- The names of the settings. -/
def names : List String :=
  ["db_name", "migrations_dir", "migrations_table", "no_tx_wrap"]

/-- Changes the setting of a name. -/
def set? (settings : Settings) (name : String) (value : SettingValue) : Option Settings :=
  if name = "db_name" then
    value.text?.map fun text => { settings with databaseName := text }
  else if name = "migrations_dir" then
    value.text?.map fun text => { settings with migrationsDirectory := Path.ofString text }
  else if name = "migrations_table" then
    value.text?.map fun text => { settings with options.table := text }
  else if name = "no_tx_wrap" then
    value.flag?.map fun flag => { settings with options.unwrapped := flag }
  else some settings

/-- The settings that entries make; none of them may be given twice. -/
def ofEntries? (entries : List (String × SettingValue)) : Option Settings :=
  let given := (entries.map (·.1)).filter names.contains
  if given.eraseDups.length = given.length then
    entries.foldlM (fun settings (name, value) => settings.set? name value) {}
  else none

end Settings

/-! ## YAML -/

/-- The yes or no that a scalar writes: it is plain, or a literal block with the tag of these. -/
def Yaml.Scalar.flag? (scalar : Yaml.Scalar) : Option Bool :=
  let written := scalar.style = .plain ∨
    (scalar.style = .literal ∧ scalar.tag = some "tag:yaml.org,2002:bool")
  if !written then none
  else if scalar.text ∈ ["true", "True", "TRUE"] then some true
  else if scalar.text ∈ ["false", "False", "FALSE"] then some false
  else none

/-- How a scalar, if there is one, reads. Every scalar reads as a text. -/
def SettingValue.ofScalar (scalar : Option Yaml.Scalar) : SettingValue :=
  { text? := scalar.map (·.text), flag? := scalar.bind (·.flag?) }

/-- The settings of a YAML text: a mapping whose keys are scalars, or nothing at all. -/
def Settings.ofYaml? (text : String) : Option Settings := do
  let document ← Yaml.Document.read? text
  match document.root with
  | none => return {}
  | some (.mapping entries) =>
    let entries ← entries.mapM fun (key, value) => do
      let key ← document.scalar? key
      return (key.text, SettingValue.ofScalar (document.scalar? value))
    Settings.ofEntries? entries
  | some (.scalar scalar) => if scalar.style = .plain ∧ scalar.text = "" then return {} else none
  | some _ => none

/-! ## TOML -/

/-- How an item reads. -/
def SettingValue.ofItem : Toml.Item → SettingValue
  | .text value => { text? := some value }
  | .flag value => { flag? := some value }
  | _ => {}

/-- The settings of a TOML text. -/
def Settings.ofToml? (text : String) : Option Settings := do
  let entries ← Toml.read? text
  Settings.ofEntries? (entries.map fun (key, item) => (key, SettingValue.ofItem item))

end SchemaMigration
