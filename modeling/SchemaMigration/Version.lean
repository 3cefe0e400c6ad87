/-!
Schema versions, the two directions of a migration, and the state a database records about itself.
-/

namespace SchemaMigration

/-- A schema version: the number that leads the name of a migration file. -/
abbrev Version := Nat

/-- The text of a version that may be absent; `none` stands for a database without migrations. -/
def Version.display : Option Version → String
  | some version => toString version
  | none => "none"

/-- Which half of a migration a file holds. -/
inductive Direction where
  | up
  | down
  deriving DecidableEq, Repr

/-- The name of a direction, as file names and messages spell it. -/
def Direction.name : Direction → String
  | .up => "up"
  | .down => "down"

/-- The JSON text of a direction, quotes included. -/
def Direction.json (direction : Direction) : String :=
  "\"" ++ direction.name ++ "\""

/-- What a database records about its schema: the version reached, and whether a step towards it
was started and not finished. -/
structure SchemaState where
  version : Option Version := none
  dirty : Bool := false
  deriving DecidableEq, Repr

namespace SchemaState

/-- The state after a finished step. -/
def clean (version : Version) : SchemaState :=
  { version := some version }

/-- The one-line text of a state. -/
def text (state : SchemaState) : String :=
  "version=" ++ Version.display state.version ++ if state.dirty then " (dirty)" else ""

/-- The compact JSON object of a state, the version first. -/
def json (state : SchemaState) : String :=
  let version := match state.version with
    | some version => toString version
    | none => "null"
  let dirty := if state.dirty then "true" else "false"
  "\x7b\"version\":" ++ version ++ ",\"dirty\":" ++ dirty ++ "\x7d"

end SchemaState

end SchemaMigration
