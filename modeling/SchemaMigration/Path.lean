import SchemaMigration.Text.Form

/-!
File paths as byte strings: joining, the names a path goes through, and the extension of its last
name. Nothing here looks at a file.
-/

namespace SchemaMigration

/-- A path, kept as it was written. -/
structure Path where
  bytes : Bytes
  deriving DecidableEq, Repr

namespace Path

/-- The byte between two names of a path. -/
def separator : UInt8 := 0x2F

/-- The name that stands for the directory itself. -/
def dot : Bytes := [0x2E]

/-- The name that stands for the parent directory. -/
def dotDot : Bytes := [0x2E, 0x2E]

def ofString (text : String) : Path :=
  ⟨Bytes.ofString text⟩

/-- The text of a path, with U+FFFD for bytes that are not UTF-8. -/
def display (path : Path) : String :=
  Utf8.lossy path.bytes

def isAbsolute (path : Path) : Bool :=
  path.bytes.head? == some separator

/-- The path of `tail` seen from `base`: an absolute `tail` stands alone, any other follows `base`
after one separator. Nothing is normalised, and an empty `tail` leaves a trailing separator. -/
def join (base tail : Path) : Path :=
  if tail.isAbsolute then tail
  else if base.bytes = [] ∨ base.bytes.getLast? = some separator then ⟨base.bytes ++ tail.bytes⟩
  else ⟨base.bytes ++ separator :: tail.bytes⟩

/-- The pieces between separators, empty ones included. -/
def pieces (path : Path) : List Bytes :=
  Form.splitOn (· == separator) path.bytes

/-- The names a path goes through; empty pieces and `.` name nothing new, `..` stays. -/
def names (path : Path) : List Bytes :=
  path.pieces.filter fun piece => piece ≠ [] ∧ piece ≠ dot

/-- A path through the given names. -/
def ofNames (absolute : Bool) (names : List Bytes) : Path :=
  ⟨(if absolute then [separator] else []) ++ [separator].intercalate names⟩

/-- The path without its last name, if it has one. -/
def parent? (path : Path) : Option Path :=
  match path.names with
  | [] => none
  | names => some (ofNames path.isAbsolute names.dropLast)

/-- The last name, unless it is `..`. -/
def fileName? (path : Path) : Option Bytes :=
  path.names.getLast?.filter (· ≠ dotDot)

/-- What follows the last dot of the last name. A name whose only dot leads it has no extension. -/
def extension? (path : Path) : Option Bytes :=
  path.fileName?.bind fun name =>
    match Form.splitOn (· == 0x2E) name with
    | [] | [_] | [[], _] => none
    | _ :: pieces => pieces.getLast?

end Path

end SchemaMigration
