import SchemaMigration.Path
import SchemaMigration.Url.Reading

/-!
File URLs and file paths. `encodePath?` writes the path part of the URL of an absolute path;
`filePath` reads the path part of a URL back as the path of a file.
-/

namespace SchemaMigration.Url

/-- The path part of the URL of an absolute path: its names, percent-encoded. -/
def encodePath? (path : Path) : Option String :=
  if path.isAbsolute then
    match path.names with
    | [] => some "/"
    | names => some (String.ofList
        (names.flatMap fun name => '/' :: Percent.encode Percent.segment name))
  else none

/-- The URL of the directory at an absolute path, which ends with a slash. -/
def ofDirectory? (path : Path) : Option String :=
  (encodePath? path).map fun encoded =>
    "file://" ++ if encoded.endsWith "/" then encoded else encoded ++ "/"

/-- Whether bytes end with a letter and the mark of a drive. -/
def endsWithDrive (bytes : Bytes) : Bool :=
  match bytes.reverse with
  | mark :: letter :: _ :: _ =>
    (mark == 0x3A || mark == 0x7C) && (Char.ofNat letter.toNat).isAlpha
  | _ => false

/-- The path of the file that a URL path without a host names. A drive at the end gets a slash. -/
def filePath (path : List Char) : Path :=
  let bytes := Percent.decode (Bytes.ofString (String.ofList path))
  ⟨if endsWithDrive bytes then bytes ++ [Path.separator] else bytes⟩

end SchemaMigration.Url
