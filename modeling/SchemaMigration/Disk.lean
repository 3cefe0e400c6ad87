import SchemaMigration.FileTree
import SchemaMigration.Sql.Script

/-!
How a tree of files is kept on a disk: the bytes of its files, and what has to be written after a
run. A database file holds the written form of the database behind a line that marks it as one.
-/

namespace SchemaMigration

namespace Content

/-- The line that begins a database file. -/
def databaseMark : String :=
  "-- database\n"

/-- The bytes of a file. -/
def toBytes : Content → Bytes
  | .plain bytes => bytes
  | .database content => Bytes.ofString (databaseMark ++ content.script)

/-- What a file of the given bytes holds: a database only if all behind the mark reads as one. -/
def ofBytes (bytes : Bytes) : Content :=
  let mark := Bytes.ofString databaseMark
  let database? := do
    let text ← Bytes.text? (bytes.drop mark.length)
    Sql.Database.ofScript? text
  match database?.filter fun _ => mark.isPrefixOf bytes with
  | some content => .database content
  | none => .plain bytes

end Content

namespace FileTree

/-- The places of `after` at which `before` has something else or nothing, a directory before what
is in it. -/
def changes (before after : FileTree) : List (Place × Node) :=
  after.nodes.filter fun (place, node) => before.node? place ≠ some node

end FileTree

/-- The place that a path leads to where no links are on the way. -/
def Path.place (path : Path) : Place :=
  path.names.foldl (fun here name => if name = dotDot then here.dropLast else here ++ [name]) []

/-- The path to a place. -/
def Path.ofPlace (place : Place) : Path :=
  ofNames true place

end SchemaMigration
