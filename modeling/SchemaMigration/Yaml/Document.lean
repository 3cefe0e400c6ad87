import SchemaMigration.Yaml.Token

/-!
YAML documents: trees of scalars, sequences and mappings. `Document.read?` accepts the texts that
hold at most one document. An alias stands for a slot, and an anchor fills one; a name that is
anchored for the first time takes the next free slot, and one that is anchored again takes the slot
of that number once more. What an alias stands for is looked up when the document is complete.
-/

namespace SchemaMigration.Yaml

/-- A scalar with its tag written out. -/
structure Scalar where
  text : String
  style : ScalarStyle := .plain
  tag : Option String := none
  deriving DecidableEq, Repr

inductive Node where
  | scalar (scalar : Scalar)
  | alias (slot : Nat)
  | sequence (items : List Node)
  | mapping (entries : List (Node × Node))

/-- A document: its root, if there is any, and the slots with the scalars anchored there, the
latest first. A slot without a scalar holds a collection. -/
structure Document where
  root : Option Node
  slots : List (Nat × Option Scalar)

namespace Document

/-- The scalar that a node is or stands for. -/
def scalar? (document : Document) : Node → Option Scalar
  | .scalar scalar => some scalar
  | .alias slot => (document.slots.lookup slot).join
  | .sequence _ | .mapping _ => none

/-! ## Reading tokens -/

/-- What is known while a document is read. -/
structure Progress where
  tokens : List Token
  /-- The handles of tags and what they stand for. -/
  handles : List (String × String) := []
  /-- The slots that names stand for. -/
  names : List (String × Nat) := []
  slots : List (Nat × Option Scalar) := []

abbrev Reader := StateT Progress Option

namespace Reader

def fail {α : Type} : Reader α := fun _ => none

/-- The next token, which stays. -/
def peek? : Reader (Option Token) :=
  return (← get).tokens.head?

def skip : Reader Unit :=
  modify fun progress => { progress with tokens := progress.tokens.tail }

/-- Whether one of some tokens is next. -/
def atToken (tokens : List Token) : Reader Bool :=
  return (← peek?).any tokens.contains

/-- Takes a token if it is next. -/
def accept (token : Token) : Reader Bool := do
  if ← atToken [token] then skip; return true else return false

def expect (token : Token) : Reader Unit := do
  if !(← accept token) then fail

/-- Takes the name of an anchor if one is next. -/
def anchor? : Reader (Option String) := do
  match ← peek? with
  | some (.anchor name) => skip; return some name
  | _ => return none

/-- Takes a tag if one is next and writes it out. -/
def tag? : Reader (Option String) := do
  match ← peek? with
  | some (.tag handle suffix) =>
    skip
    if handle == "" then return some suffix
    match (← get).handles.lookup handle with
    | some start => return some (start ++ suffix)
    | none => fail
  | _ => return none

/-- Takes an anchor and a tag, in either order, as far as they are next. -/
def properties : Reader (Option String × Option String) := do
  match ← anchor? with
  | some name => return (some name, ← tag?)
  | none =>
    let tag ← tag?
    return (← if tag.isSome then anchor? else pure none, tag)

/-- Fills the slot of a name. -/
def fill (name : Option String) (scalar : Option Scalar) : Reader Unit :=
  match name with
  | none => pure ()
  | some name => modify fun progress =>
    let slot := progress.names.length
    { progress with
      names := (name, slot) :: progress.names.filter (·.1 ≠ name)
      slots := (slot, scalar) :: progress.slots }

/-- The slot of a name that has been anchored. -/
def slotOf (name : String) : Reader Nat := do
  match (← get).names.lookup name with
  | some slot => return slot
  | none => fail

/-- A plain scalar without text. -/
def empty : Node := .scalar { text := "" }

/-- Where a node stands: in an entry of a block mapping a sequence need not be indented, and in a
flow collection there are no block collections. -/
inductive Context where
  | block
  | entry
  | flow
  deriving DecidableEq, Repr

/-- Reads a node unless one of some tokens is next, in which case the node is empty. -/
def orEmpty (ends : List Token) (read : Reader Node) : Reader Node := do
  if ← atToken ends then return empty else read

/-- Fills the slot of a name with the collection that `read` reads. -/
def collection (name : Option String) (read : Reader Node) : Reader Node := do
  fill name none
  read

/-- The node of an anchor and a tag, one of which there has to be, without anything behind them. -/
def bare (name tag : Option String) : Reader Node := do
  if name.isNone && tag.isNone then fail
  let scalar : Scalar := { text := "", tag }
  fill name (some scalar)
  return .scalar scalar

mutual

/-- Reads a node. In this and the readers below, `bound` is at least the number of tokens, doubled,
and one. -/
def node (bound : Nat) (context : Context) : Reader Node :=
  match bound with
  | 0 => fail
  | bound + 1 => do
    if let some (.alias name) ← peek? then
      skip
      return .alias (← slotOf name)
    let (name, tag) ← properties
    match ← peek? with
    | some (.scalar text style) =>
      skip
      fill name (some { text, style, tag })
      return .scalar { text, style, tag }
    | some .blockEntry =>
      if context == .entry then
        collection name do
          return .sequence (← bareItems bound)
      else bare name tag
    | some .flowSequenceStart =>
      collection name do
        skip
        return .sequence (← flowItems bound true)
    | some .flowMappingStart =>
      collection name do
        skip
        return .mapping (← flowEntries bound true)
    | some .blockSequenceStart =>
      if context == .flow then bare name tag
      else
        collection name do
          skip
          return .sequence (← blockItems bound)
    | some .blockMappingStart =>
      if context == .flow then bare name tag
      else
        collection name do
          skip
          return .mapping (← blockEntries bound)
    | _ => bare name tag

/-- The items of a block sequence, with its end. -/
def blockItems (bound : Nat) : Reader (List Node) :=
  match bound with
  | 0 => fail
  | bound + 1 => do
    if ← accept .blockEnd then return []
    expect .blockEntry
    let item ← orEmpty [.blockEntry, .blockEnd] (node bound .block)
    return item :: (← blockItems bound)

/-- The items of a sequence that is not indented; it has no end of its own. -/
def bareItems (bound : Nat) : Reader (List Node) :=
  match bound with
  | 0 => fail
  | bound + 1 => do
    if ← accept .blockEntry then
      let item ← orEmpty [.blockEntry, .key, .value, .blockEnd] (node bound .block)
      return item :: (← bareItems bound)
    else return []

/-- The entries of a block mapping, with its end. -/
def blockEntries (bound : Nat) : Reader (List (Node × Node)) :=
  match bound with
  | 0 => fail
  | bound + 1 => do
    if ← accept .blockEnd then return []
    expect .key
    let key ← orEmpty [.key, .value, .blockEnd] (node bound .entry)
    let value ←
      if ← accept .value then orEmpty [.key, .value, .blockEnd] (node bound .entry)
      else pure empty
    return (key, value) :: (← blockEntries bound)

/-- The items of a flow sequence, with its end. An item may be a single entry of a mapping. -/
def flowItems (bound : Nat) (first : Bool) : Reader (List Node) :=
  match bound with
  | 0 => fail
  | bound + 1 => do
    if ← accept .flowSequenceEnd then return []
    if !first then expect .flowEntry
    if ← accept .flowSequenceEnd then return []
    let item ←
      if ← accept .key then do
        let key ←
          if ← atToken [.value, .flowEntry, .flowSequenceEnd] then
            skip
            pure empty
          else node bound .flow
        let value ←
          if ← accept .value then orEmpty [.flowEntry, .flowSequenceEnd] (node bound .flow)
          else pure empty
        pure (.mapping [(key, value)])
      else node bound .flow
    return item :: (← flowItems bound false)

/-- The entries of a flow mapping, with its end. -/
def flowEntries (bound : Nat) (first : Bool) : Reader (List (Node × Node)) :=
  match bound with
  | 0 => fail
  | bound + 1 => do
    if ← accept .flowMappingEnd then return []
    if !first then expect .flowEntry
    if ← accept .flowMappingEnd then return []
    let entry ←
      if ← accept .key then do
        let key ← orEmpty [.value, .flowEntry, .flowMappingEnd] (node bound .flow)
        let value ←
          if ← accept .value then orEmpty [.flowEntry, .flowMappingEnd] (node bound .flow)
          else pure empty
        pure (key, value)
      else pure (← node bound .flow, empty)
    return entry :: (← flowEntries bound false)

end

/-- What the handles `!` and `!!` stand for unless a directive says otherwise. -/
def standardHandles : List (String × String) :=
  [("!", "!"), ("!!", "tag:yaml.org,2002:")]

/-- Takes directives as long as they are next. There can be one version, 1.1 or 1.2, and one
meaning of each handle. -/
def directives : Nat → Bool → Reader Unit
  | 0, _ => fail
  | bound + 1, versioned => do
    match ← peek? with
    | some (.versionDirective major minor) =>
      if versioned || major != 1 || (minor != 1 && minor != 2) then fail
      skip
      directives bound true
    | some (.tagDirective handle start) =>
      if ((← get).handles.lookup handle).isSome then fail
      skip
      modify fun progress => { progress with handles := (handle, start) :: progress.handles }
      directives bound versioned
    | _ => return ()

/-- Whether a document starts here that says so, or nothing follows. -/
def atStart : Reader Bool := do
  match ← peek? with
  | none | some (.versionDirective ..) | some (.tagDirective ..) | some .documentStart =>
    return true
  | some _ => return false

/-- Reads the root of the only document, if there is one. -/
def root? (bound : Nat) : Reader (Option Node) := do
  if !(← atStart) then
    modify fun progress => { progress with handles := standardHandles }
    return some (← node bound .block)
  if (← peek?).isNone then return none
  directives bound false
  modify fun progress => { progress with handles := progress.handles ++ standardHandles }
  expect .documentStart
  if (← atStart) || (← atToken [.documentEnd]) then return some empty
  return some (← node bound .block)

/-- Takes the marks of the end of a document, behind which nothing may follow. -/
def finish : Reader Unit := do
  if !((← get).tokens.all (· == .documentEnd)) then fail

end Reader

/-- Reads a text that holds at most one document. -/
def read? (text : String) : Option Document := do
  let tokens ← Token.scan? text
  let read : Reader (Option Node) := do
    let root ← Reader.root? (2 * tokens.length + 1)
    Reader.finish
    return root
  let (root, progress) ← read.run { tokens }
  return { root, slots := progress.slots }

end Document

end SchemaMigration.Yaml
