import SchemaMigration.Toml.Scalar

/-!
TOML documents. `Document.read?` answers the table that a text stands for, or nothing if the text is
broken or says something twice.
-/

namespace SchemaMigration.Toml

/-- A line break is LF or CR LF. -/
def unifyBreaks : List Char → List Char
  | [] => []
  | '\r' :: '\n' :: rest => '\n' :: unifyBreaks rest
  | c :: rest => c :: unifyBreaks rest

/-- How deep values nest and how many parts a key has at most. -/
def depthLimit : Nat := 79

/-- A reader of characters. -/
abbrev Reader := StateT (List Char) Option

namespace Reader

variable {α : Type}

def fail : Reader α := fun _ => none

/-- A reader of the front of the characters. -/
def front (read : List Char → Option (α × List Char)) : Reader α := read

/-- The next character, which stays. -/
def peek? : Reader (Option Char) :=
  return (← get).head?

def skip : Reader Unit :=
  modify List.tail

/-- Takes a character if it is next. -/
def accept (c : Char) : Reader Bool := do
  if (← peek?) = some c then skip; return true else return false

def expect (c : Char) : Reader Unit := do
  if !(← accept c) then fail

def blanks : Reader Unit :=
  modify (·.dropWhile isBlank)

/-- Takes a comment if one is next. -/
def comment : Reader Unit :=
  modify fun cs => if cs.head? = some '#' then cs.dropWhile isTextChar else cs

/-- Takes blanks, comments and line breaks. `bound` is at least the number of characters. -/
def space : Nat → Reader Unit
  | 0 => pure ()
  | bound + 1 => do
    blanks
    comment
    if ← accept '\n' then space bound

/-- Takes the rest of a line, which may hold nothing but blanks and a comment. -/
def lineEnd : Reader Unit := do
  blanks
  comment
  if (← peek?).isSome then expect '\n'

/-! ## Keys -/

def isBareKeyChar (c : Char) : Bool :=
  c.isAlphanum || c == '_' || c == '-'

/-- One part of a key: bare or in quotes. -/
def keyPart : Reader String := do
  match ← peek? with
  | some '\x22' | some '\x27' => front readLineString
  | _ =>
    let cs ← get
    let name := cs.takeWhile isBareKeyChar
    if name = [] then fail
    set (cs.dropWhile isBareKeyChar)
    return String.ofList name

/-- The parts of a key, at most `limit`, with dots between them. -/
def keyParts : Nat → Reader (List String)
  | 0 => fail
  | limit + 1 => do
    blanks
    let part ← keyPart
    blanks
    if ← accept '.' then return part :: (← keyParts limit) else return [part]

/-- A key: the parts that lead to its table, and its own. -/
def key : Reader (List String × String) := do
  let parts ← keyParts depthLimit
  return (parts.dropLast, parts.getLast?.getD "")

/-! ## Values -/

mutual

/-- A value, in which others nest at most `depth` deep. In this and the readers below, `bound` is at
least the number of characters, doubled, and one. -/
def value (bound depth : Nat) : Reader Item :=
  match bound, depth with
  | 0, _ => fail
  | bound + 1, depth => do
    match ← peek? with
    | some '\x22' | some '\x27' => return .text (← front readAnyString)
    | some '[' =>
      if depth = 0 then fail
      skip
      return .array (← items bound (depth - 1))
    | some '\x7b' =>
      if depth = 0 then fail
      skip
      blanks
      if ← accept '\x7d' then return .inline []
      return .inline (← entries bound (depth - 1) [])
    | _ => front readPlainScalar

/-- The values of an array, with its end. -/
def items (bound depth : Nat) : Reader (List Item) :=
  match bound with
  | 0 => fail
  | bound + 1 => do
    space (← get).length
    if ← accept ']' then return []
    let item ← value bound depth
    space (← get).length
    if ← accept ',' then return item :: (← items bound depth)
    expect ']'
    return [item]

/-- The entries of a table in braces behind those that are known, with its end. -/
def entries (bound depth : Nat) (known : Entries) : Reader Entries :=
  match bound with
  | 0 => fail
  | bound + 1 => do
    let (path, name) ← key
    expect '='
    blanks
    let item ← value bound depth
    blanks
    match known.insert? path name item with
    | none => fail
    | some known =>
      if ← accept ',' then entries bound depth known
      else
        expect '\x7d'
        return known

end

/-! ## Lines -/

/-- A line with an entry. -/
def entry : Reader Line := do
  let (path, name) ← key
  expect '='
  blanks
  let item ← value (2 * (← get).length + 1) depthLimit
  lineEnd
  return .entry path name item

/-- A line with a header, behind its first bracket. -/
def header : Reader Line := do
  let isElement ← accept '['
  let (path, name) ← key
  expect ']'
  if isElement then expect ']'
  lineEnd
  return if isElement then .elementHeader path name else .header path name

/-- All lines. `bound` is more than the number of characters. -/
def lines : Nat → Reader (List Line)
  | 0 => fail
  | bound + 1 => do
    blanks
    match ← peek? with
    | none => return []
    | some '#' => lineEnd; lines bound
    | some '\n' => skip; lines bound
    | some '[' =>
      skip
      let line ← header
      return line :: (← lines bound)
    | some _ =>
      let line ← entry
      return line :: (← lines bound)

end Reader

/-- The table that a text stands for. A byte order mark may lead the text. -/
def read? (text : String) : Option Entries := do
  let cs := unifyBreaks text.toList
  let cs := if cs.head? = some '\uFEFF' then cs.tail else cs
  let (lines, _) ← (Reader.lines (cs.length + 1)).run cs
  Entries.ofLines? [] [] lines

end SchemaMigration.Toml
