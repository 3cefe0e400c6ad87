/-!
Why an operation on files fails.
-/

namespace SchemaMigration

/-- Why an operation on files fails. -/
inductive IoFault where
  | notFound
  | exists
  | notDirectory
  | isDirectory
  | nameTooLong
  | tooManyLinks
  /-- A path with a NUL byte, which no file has. -/
  | nulInPath
  /-- The text of a file is asked for, and its bytes are not UTF-8. -/
  | notUtf8
  deriving DecidableEq, Repr

/-- The text of a fault, with the system's number where it has one. -/
def IoFault.message : IoFault → String
  | notFound => "No such file or directory (os error 2)"
  | .exists => "File exists (os error 17)"
  | notDirectory => "Not a directory (os error 20)"
  | isDirectory => "Is a directory (os error 21)"
  | nameTooLong => "File name too long (os error 36)"
  | tooManyLinks => "Too many levels of symbolic links (os error 40)"
  | nulInPath => "file name contained an unexpected NUL byte"
  | notUtf8 => "stream did not contain valid UTF-8"

end SchemaMigration
