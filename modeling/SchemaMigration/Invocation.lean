import SchemaMigration.Path

/-!
The words of a command line. `Invocation.read` takes options up to the first word that is none; that
word and all behind it are the command, as they are.
-/

namespace SchemaMigration

/-- What a command line asks for. -/
structure Invocation where
  home : Option Path := none
  settingsFile : Option Path := none
  databaseName : Option String := none
  migrationsDirectory : Option Path := none
  json : Bool := false
  verbose : Bool := false
  command : List String := []
  deriving DecidableEq, Repr

/-- What a command line comes to that asks for nothing to be done. -/
inductive Usage where
  | help
  | version
  | misuse
  deriving DecidableEq, Repr

/-- The options that take a value. -/
inductive ValueOption where
  | home
  | settingsFile
  | databaseName
  | migrationsDirectory
  deriving DecidableEq, Repr

/-- The options that take none. -/
inductive Switch where
  | json
  | verbose
  | help
  | version
  deriving DecidableEq, Repr

/-- What a word is, where an option may stand. -/
inductive Word where
  /-- Two dashes: the command follows. -/
  | separator
  | valued (option : ValueOption) (value : Option String)
  | switches (switches : List Switch)
  /-- A switch with a value, which is never right. -/
  | valuedSwitch
  | other
  deriving DecidableEq, Repr

namespace Word

def valueOption? (name : String) : Option ValueOption :=
  [("home", .home), ("config", .settingsFile), ("db-name", .databaseName),
    ("migrations-dir", ValueOption.migrationsDirectory)].lookup name

def switch? (name : String) : Option Switch :=
  [("json", .json), ("verbose", .verbose), ("help", .help), ("version", Switch.version)].lookup name

def letter? (c : Char) : Option Switch :=
  [('v', .verbose), ('h', .help), ('V', Switch.version)].lookup c

/-- What follows the first `=` of some characters. -/
def attached? (cs : List Char) : Option String :=
  match cs.dropWhile (· ≠ '=') with
  | _ :: value => some (String.ofList value)
  | [] => none

/-- Tells what a word is. Words that look like options but name none are like any other word. -/
def ofText (text : String) : Word :=
  match text.toList with
  | ['-', '-'] => .separator
  | '-' :: '-' :: cs =>
    let name := String.ofList (cs.takeWhile (· ≠ '='))
    match valueOption? name, switch? name, attached? cs with
    | some option, _, value => .valued option value
    | none, some switch, none => .switches [switch]
    | none, some _, some _ => .valuedSwitch
    | none, none, _ => .other
  | '-' :: c :: cs =>
    match (c :: cs).mapM letter? with
    | some found => .switches found
    | none => .other
  | _ => .other

end Word

namespace Invocation

/-- A path from a command line, which is not empty. -/
def path? (text : String) : Option Path :=
  if text = "" then none else some (Path.ofString text)

/-- Gives an option its value, which it has not had before. -/
def give? (invocation : Invocation) (option : ValueOption) (value : String) :
    Option Invocation :=
  match option with
  | .home =>
    if invocation.home.isSome then none
    else (path? value).map fun path => { invocation with home := some path }
  | .settingsFile =>
    if invocation.settingsFile.isSome then none
    else (path? value).map fun path => { invocation with settingsFile := some path }
  | .databaseName =>
    if invocation.databaseName.isSome then none
    else some { invocation with databaseName := some value }
  | .migrationsDirectory =>
    if invocation.migrationsDirectory.isSome then none
    else (path? value).map fun path => { invocation with migrationsDirectory := some path }

/-- Turns a switch on, which has not been on before. -/
def turnOn (invocation : Invocation) : Switch → Except Usage Invocation
  | .json =>
    if invocation.json then .error .misuse else .ok { invocation with json := true }
  | .verbose =>
    if invocation.verbose then .error .misuse else .ok { invocation with verbose := true }
  | .help => .error .help
  | .version => .error .version

/-- Reads words behind those that made an invocation; `pending` is an option that waits for its
value. A word that looks like an option but is none can be a value. -/
def readWords (invocation : Invocation) :
    Option ValueOption → List String → Except Usage Invocation
  | none, [] => .ok invocation
  | some _, [] => .error .misuse
  | pending, word :: rest =>
    match Word.ofText word, pending with
    | .separator, none => .ok { invocation with command := rest }
    | .valued option none, none => readWords invocation (some option) rest
    | .valued option (some value), none =>
      match invocation.give? option value with
      | some invocation => readWords invocation none rest
      | none => .error .misuse
    | .switches switches, none =>
      match switches.foldlM turnOn invocation with
      | .ok invocation => readWords invocation none rest
      | .error usage => .error usage
    | .other, none => .ok { invocation with command := word :: rest }
    | .other, some option =>
      match invocation.give? option word with
      | some invocation => readWords invocation none rest
      | none => .error .misuse
    | .valuedSwitch, _ | _, some _ => .error .misuse

/-- Reads a command line. Without an option for it, the home directory is the value of the
environment variable, if that is set. -/
def read (words : List String) (homeVariable : Option String) : Except Usage Invocation := do
  let invocation ← readWords {} none words
  let invocation ←
    match invocation.home, homeVariable with
    | none, some value =>
      match invocation.give? .home value with
      | some invocation => pure invocation
      | none => throw .misuse
    | _, _ => pure invocation
  if invocation.command = [] then throw .misuse
  return invocation

end Invocation

end SchemaMigration
