import SchemaMigration.IoFault
import SchemaMigration.Path
import SchemaMigration.Sql.Database

/-!
A tree of directories, files and symbolic links, and how paths name places in it. A place is given
by the names that lead to it from the root, free of links and of `.` and `..`; `locate` finds the
place that a path names for the operating system, `storePlace` the one that it names for a database
engine, which takes `..` off the text of the path.
-/

namespace SchemaMigration

/-- What a regular file holds. -/
inductive Content where
  | plain (bytes : Bytes)
  | database (content : Sql.Database)
  deriving DecidableEq, Repr

/-- What stands at a place. -/
inductive Node where
  | directory
  | file (content : Content)
  | link (target : Path)
  deriving DecidableEq, Repr

/-- The names that lead to a place from the root. -/
abbrev Place := List Bytes

/-- A tree of files with a working directory. The root is always there; every other place is listed
once, and only if its parent is a directory. -/
structure FileTree where
  nodes : List (Place × Node) := []
  workingDirectory : Place := []
  deriving DecidableEq, Repr

namespace FileTree

/-- What stands at a place. -/
def node? (tree : FileTree) (place : Place) : Option Node :=
  if place = [] then some .directory else tree.nodes.lookup place

/-- The names in a directory and what they stand for, in no particular order. -/
def entries (tree : FileTree) (place : Place) : List (Bytes × Node) :=
  tree.nodes.filterMap fun (other, node) =>
    match other.reverse with
    | name :: parent => if parent.reverse = place then some (name, node) else none
    | [] => none

/-- Puts a node at a place. -/
def put (tree : FileTree) (place : Place) (node : Node) : FileTree :=
  { tree with nodes := (tree.nodes.filter fun (other, _) => other ≠ place) ++ [(place, node)] }

/-- Takes a place and everything below it out of the tree. -/
def remove (tree : FileTree) (place : Place) : FileTree :=
  { tree with nodes := tree.nodes.filter fun (other, _) => !(place.isPrefixOf other) }

/-! ## Places of paths -/

/-- How many links one path may go through. -/
def linkLimit : Nat := 40

/-- The longest name of a file. -/
def nameLimit : Nat := 255

/-- Walks along pieces of a path from a place that exists. The answer is a place and what stands
there; nothing may stand there only if it is the last name. Links on the way are followed, and the
last one too if `follow` holds; `through` goes on behind a link. -/
def walkTo (tree : FileTree) (follow : Bool)
    (through : Place → List Bytes → Except IoFault (Place × Option Node)) :
    Place → List Bytes → Except IoFault (Place × Option Node)
  | here, [] => .ok (here, tree.node? here)
  | here, piece :: rest =>
    if tree.node? here ≠ some .directory then .error .notDirectory
    else if piece = [] ∨ piece = Path.dot then walkTo tree follow through here rest
    else if piece = Path.dotDot then walkTo tree follow through here.dropLast rest
    else if nameLimit < piece.length then .error .nameTooLong
    else
      match tree.node? (here ++ [piece]) with
      | none =>
        if rest.all (· = []) then .ok (here ++ [piece], none) else .error .notFound
      | some (.link target) =>
        if rest = [] ∧ !follow then .ok (here ++ [piece], some (.link target))
        else through (if target.isAbsolute then [] else here) (target.pieces ++ rest)
      | some _ => walkTo tree follow through (here ++ [piece]) rest

/-- Walks along pieces of a path through at most so many links. -/
def walk (tree : FileTree) (follow : Bool) :
    Nat → Place → List Bytes → Except IoFault (Place × Option Node)
  | 0 => walkTo tree follow fun _ _ => .error .tooManyLinks
  | links + 1 => walkTo tree follow (walk tree follow links)

/-- The place that a path names, and what stands there. -/
def locate (tree : FileTree) (path : Path) (follow : Bool) :
    Except IoFault (Place × Option Node) :=
  if path.bytes = [] then .error .notFound
  else if path.bytes.contains 0 then .error .nulInPath
  else
    walk tree follow linkLimit (if path.isAbsolute then [] else tree.workingDirectory) path.pieces

/-- What a path names, links followed. -/
def stat (tree : FileTree) (path : Path) : Except IoFault (Place × Node) := do
  match ← tree.locate path true with
  | (place, some node) => return (place, node)
  | (_, none) => throw .notFound

def isDirectory (tree : FileTree) (path : Path) : Bool :=
  match tree.stat path with
  | .ok (_, .directory) => true
  | _ => false

def isFile (tree : FileTree) (path : Path) : Bool :=
  match tree.stat path with
  | .ok (_, .file _) => true
  | _ => false

/-- The text of the file that a path names. A database is no text. -/
def readText (tree : FileTree) (path : Path) : Except IoFault String := do
  match ← tree.stat path with
  | (_, .file (.plain bytes)) => (Utf8.decode bytes).mapError fun _ => .notUtf8
  | (_, .file (.database _)) => throw .notUtf8
  | _ => throw .isDirectory

/-! ## Directories -/

/-- Makes a directory where nothing stands. -/
def makeDirectory (tree : FileTree) (path : Path) : Except IoFault FileTree := do
  match ← tree.locate path false with
  | (place, none) => return tree.put place .directory
  | (_, some _) => throw .exists

/-- Makes a directory unless it is there already. -/
def ensureDirectory (tree : FileTree) (path : Path) : Except IoFault FileTree :=
  match tree.makeDirectory path with
  | .ok tree => .ok tree
  | .error fault => if tree.isDirectory path then .ok tree else .error fault

/-- Makes a directory and, where they are missing, its parents. Directories made before a failure
stay; the answer is the tree with them. `depth` bounds how many parents are tried. -/
def ensureWithParents (tree : FileTree) (path : Path) : Nat → FileTree × Except IoFault Unit
  | 0 => (tree, .error .notFound)
  | depth + 1 =>
    if path.bytes = [] then (tree, .ok ())
    else
      match tree.makeDirectory path with
      | .ok tree => (tree, .ok ())
      | .error .notFound =>
        match path.parent? with
        | none => (tree, .error .notFound)
        | some parent =>
          match ensureWithParents tree parent depth with
          | (tree, .error fault) => (tree, .error fault)
          | (tree, .ok ()) =>
            match tree.ensureDirectory path with
            | .ok tree => (tree, .ok ())
            | .error fault => (tree, .error fault)
      | .error fault =>
        if tree.isDirectory path then (tree, .ok ()) else (tree, .error fault)

/-- Makes a directory with its parents. -/
def createDirectories (tree : FileTree) (path : Path) : FileTree × Except IoFault Unit :=
  ensureWithParents tree path (path.names.length + 2)

/-! ## Database files -/

/-- How many links a database engine goes through to a file. -/
def storeLinkLimit : Nat := 200

/-- Walks along pieces of a path the way a database engine does: `..` takes off the last name even
where no such place exists, and only links and names through files are looked at; `through` goes on
behind a link. -/
def storeWalkTo (tree : FileTree) (through : Place → List Bytes → Option Place) :
    Place → List Bytes → Option Place
  | here, [] => some here
  | here, piece :: rest =>
    if piece = [] ∨ piece = Path.dot then storeWalkTo tree through here rest
    else if piece = Path.dotDot then storeWalkTo tree through here.dropLast rest
    else
      match tree.walk false 0 [] (here ++ [piece]) with
      | .error .notFound | .ok (_, none) => storeWalkTo tree through (here ++ [piece]) rest
      | .error _ => none
      | .ok (_, some (.link target)) =>
        through (if target.isAbsolute then [] else here) (target.pieces ++ rest)
      | .ok (_, some _) => storeWalkTo tree through (here ++ [piece]) rest

/-- Walks along pieces of a path the way a database engine does, through at most so many links. -/
def storeWalk (tree : FileTree) : Nat → Place → List Bytes → Option Place
  | 0 => storeWalkTo tree fun _ _ => none
  | links + 1 => storeWalkTo tree (storeWalk tree links)

/-- The place of the file that a database engine opens for a path, if it can be there: it holds a
file, or its parent is a directory. -/
def storePlace (tree : FileTree) (path : Path) : Option Place :=
  let start := if path.isAbsolute then [] else tree.workingDirectory
  match storeWalk tree storeLinkLimit start path.pieces with
  | none | some [] => none
  | some place =>
    match tree.node? place with
    | some (.file _) => some place
    | some _ => none
    | none => if tree.node? place.dropLast = some .directory then some place else none

end FileTree

end SchemaMigration
