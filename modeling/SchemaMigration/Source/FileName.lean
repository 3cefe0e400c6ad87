import SchemaMigration.Error
import SchemaMigration.Text.Numeral

/-!
Names of migration files: `<version>_<identifier>.<up or down>.<extension>`. The version is a digit
string of any length; identifier and extension may be empty and may hold dots, but no line end. Of
several direction marks the last one counts.
-/

namespace SchemaMigration

/-- A file name, read. -/
structure FileName where
  version : Version
  identifier : String
  direction : Direction
  extension : String
  deriving DecidableEq, Repr

namespace FileName

/-- The greatest version that a version table can hold. -/
def maxVersion : Version := Numeral.signedMax

/-- The direction mark at the front of a text, and what follows it. -/
def markAt : List Char → Option (Direction × List Char)
  | '.' :: 'u' :: 'p' :: '.' :: rest => some (.up, rest)
  | '.' :: 'd' :: 'o' :: 'w' :: 'n' :: '.' :: rest => some (.down, rest)
  | _ => none

/-- Splits a text at its last direction mark. -/
def splitAtLastMark : List Char → Option (List Char × Direction × List Char)
  | [] => none
  | c :: rest =>
    match splitAtLastMark rest with
    | some (identifier, direction, extension) => some (c :: identifier, direction, extension)
    | none => (markAt (c :: rest)).map fun (direction, extension) => ([], direction, extension)

/-- Splits a name into its digits and the parts behind them; `none` for a name of another form. -/
def split (name : List Char) : Option (List Char × List Char × Direction × List Char) :=
  match name.dropWhile Char.isDigit with
  | '_' :: rest =>
    if name.takeWhile Char.isDigit = [] ∨ '\n' ∈ rest then none
    else (splitAtLastMark rest).map (name.takeWhile Char.isDigit, ·)
  | _ => none

/-- Reads a name. The answer is `none` for a name of another form, and an error for a version that
no version table can hold. -/
def read (name : String) : Except Error (Option FileName) :=
  match split name.toList with
  | none => .ok none
  | some (digits, identifier, direction, extension) =>
    let version := Numeral.accumulate 0 digits
    if Numeral.unsignedMax < version then .error (.versionNotNumber name)
    else if maxVersion < version then .error (.versionOutOfRange name)
    else .ok (some {
      version
      identifier := String.ofList identifier
      direction
      extension := String.ofList extension })

/-- The name with the given digits for its version. -/
def render (digits : String) (name : FileName) : String :=
  digits ++ "_" ++ name.identifier ++ "." ++ name.direction.name ++ "." ++ name.extension

end FileName

end SchemaMigration
