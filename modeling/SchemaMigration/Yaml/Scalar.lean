import SchemaMigration.Text.Digit
import SchemaMigration.Yaml.Spot

/-!
The five ways to write a scalar in YAML. Each reader walks over the spots once, character by
character, and answers the text of the scalar and the spots behind it, or nothing if the text is
broken.
-/

namespace SchemaMigration.Yaml

/-- How a scalar is written. -/
inductive ScalarStyle where
  | plain
  | singleQuoted
  | doubleQuoted
  | literal
  | folded
  deriving DecidableEq, Repr

/-- What a line break and the breaks after it stand for between two words: one LF alone is a space,
and before other breaks it is dropped. -/
def foldBreaks (first more : String) : String :=
  if first == "\n" then (if more == "" then " " else more) else first ++ more

/-- The blanks or line breaks between two words of a scalar. -/
structure Gap where
  /-- The blanks, as long as there is no line break. -/
  blanks : String := ""
  broken : Bool := false
  first : String := ""
  more : String := ""
  deriving DecidableEq, Repr

namespace Gap

/-- What a gap stands for. -/
def text (gap : Gap) : String :=
  if gap.broken then foldBreaks gap.first gap.more else gap.blanks

/-- The gap with a blank or a line break more. -/
def push (gap : Gap) (c : Char) : Gap :=
  if isBreak c then
    if gap.broken then { gap with more := gap.more.push c }
    else { broken := true, first := c.toString }
  else if gap.broken then gap
  else { gap with blanks := gap.blanks.push c }

end Gap

/-! ## Plain scalars -/

/-- Reads a plain scalar that goes on at the spots after a gap, if there is one. In a flow
collection the signs of the collection end it; elsewhere a line less indented than `indent` does.
The answer says whether a line break follows the last word. -/
def readPlain (flow : Bool) (indent : Nat) :
    Option Gap → String → List Spot → Option (String × Bool × List Spot)
  | gap, text, [] => some (text, gap.any (·.broken), [])
  | gap, text, spot :: rest =>
    let here := spot :: rest
    if isBlank spot.char || isBreak spot.char then
      if gap.any (·.broken) && spot.char == '\t' && spot.column < indent then none
      else readPlain flow indent (some ((gap.getD {}).push spot.char)) text rest
    else
      let stops := gap.any fun _ =>
        (!flow && spot.column < indent) || atDocumentMark '-' here || atDocumentMark '.' here ||
          spot.char == '#'
      if stops then some (text, gap.any (·.broken), here)
      else if flow && spot.char == ':' && atAny [',', '?', '[', ']', '\x7b', '\x7d'] rest then none
      else if (spot.char == ':' && atWordEnd rest) ||
          (flow && [',', '[', ']', '\x7b', '\x7d'].contains spot.char) then
        some (text, gap.any (·.broken), here)
      else
        readPlain flow indent none ((text ++ (gap.map (·.text)).getD "").push spot.char) rest

/-! ## Quoted scalars -/

/-- Where a reader of a quoted scalar is. -/
inductive QuotedState where
  | word
  | gap (gap : Gap)
  /-- Behind a quote that may be the first of a pair. -/
  | quote
  /-- Behind a backslash. -/
  | escape
  /-- In the digits of a character: so many are to come, and those before made this value. -/
  | code (left value : Nat)
  deriving DecidableEq, Repr

/-- The characters that a letter behind a backslash stands for. -/
def escapeTable : List (Char × Char) :=
  [('0', '\x00'), ('a', '\x07'), ('b', '\x08'), ('t', '\t'), ('\t', '\t'), ('n', '\n'),
    ('v', '\x0B'), ('f', '\x0C'), ('r', '\r'), ('e', '\x1B'), (' ', ' '), ('\x22', '\x22'),
    ('/', '/'), ('\\', '\\'), ('N', '\u0085'), ('_', '\u00A0'), ('L', '\u2028'), ('P', '\u2029')]

/-- How many digits follow a letter behind a backslash. -/
def codeLength? (c : Char) : Option Nat :=
  [('x', 2), ('u', 4), ('U', 8)].lookup c

/-- Reads the rest of a quoted scalar. -/
def readQuoted (single : Bool) : QuotedState → String → List Spot → Option (String × List Spot)
  | .quote, text, [] => some (text, [])
  | _, _, [] => none
  | .quote, text, spot :: rest =>
    if spot.char == '\x27' then readQuoted single .word (text.push '\x27') rest
    else some (text, spot :: rest)
  | .escape, text, spot :: rest =>
    if isBreak spot.char then readQuoted single (.gap { broken := true }) text rest
    else
      match codeLength? spot.char, escapeTable.lookup spot.char with
      | some length, _ => readQuoted single (.code length 0) text rest
      | none, some c => readQuoted single .word (text.push c) rest
      | none, none => none
  | .code left value, text, spot :: rest =>
    match Digit.value? 16 spot.char with
    | none => none
    | some digit =>
      let value := value * 16 + digit
      if left ≤ 1 then
        match Digit.charOfCode? value with
        | some c => readQuoted single .word (text.push c) rest
        | none => none
      else readQuoted single (.code (left - 1) value) text rest
  | .gap gap, text, spot :: rest =>
    if isBlank spot.char || isBreak spot.char then
      readQuoted single (.gap (gap.push spot.char)) text rest
    else if atDocumentMark '-' (spot :: rest) || atDocumentMark '.' (spot :: rest) then none
    else inWord single (text ++ gap.text) spot rest
  | .word, text, spot :: rest =>
    if isBlank spot.char || isBreak spot.char then
      readQuoted single (.gap (Gap.push {} spot.char)) text rest
    else inWord single text spot rest
where
  /-- Reads on from a character of a word. -/
  inWord (single : Bool) (text : String) (spot : Spot) (rest : List Spot) :
      Option (String × List Spot) :=
    if single then
      if spot.char == '\x27' then readQuoted single .quote text rest
      else readQuoted single .word (text.push spot.char) rest
    else if spot.char == '\x22' then some (text, rest)
    else if spot.char == '\\' then readQuoted single .escape text rest
    else readQuoted single .word (text.push spot.char) rest

/-! ## Block scalars -/

/-- What happens to the line breaks at the end of a block scalar. -/
inductive Chomping where
  | strip
  | clip
  | keep
  deriving DecidableEq, Repr

/-- A block scalar as far as it is read. -/
structure Block where
  text : String := ""
  /-- The break that ended the last line. -/
  first : String := ""
  /-- The breaks after that one. -/
  more : String := ""
  /-- Whether the last line started with a blank. -/
  indented : Bool := false
  deriving DecidableEq, Repr

namespace Block

/-- The block with the first character of a new line. In a folded block the break before the line
is folded, unless the line or the one before it started with a blank. -/
def startLine (literal : Bool) (block : Block) (c : Char) : Block :=
  let joint :=
    if !literal && block.first == "\n" && !block.indented && !isBlank c then
      foldBreaks block.first block.more
    else block.first ++ block.more
  { text := (block.text ++ joint).push c, indented := isBlank c }

/-- What a block stands for at its end. -/
def finish (chomping : Chomping) (block : Block) : String :=
  match chomping with
  | .strip => block.text
  | .clip => block.text ++ block.first
  | .keep => block.text ++ block.first ++ block.more

end Block

/-- Reads the lines of a block scalar. `inLine` holds inside a line; elsewhere a line of the block
starts at column `indent`, and one further left is not part of it. -/
def readLines (literal : Bool) (indent : Nat) :
    Bool → Block → List Spot → Option (Block × List Spot)
  | _, block, [] => some (block, [])
  | true, block, spot :: rest =>
    if isBreak spot.char then
      readLines literal indent false { block with first := spot.char.toString } rest
    else readLines literal indent true { block with text := block.text.push spot.char } rest
  | false, block, spot :: rest =>
    if spot.char == ' ' && spot.column < indent then readLines literal indent false block rest
    else if spot.char == '\t' && spot.column < indent then none
    else if isBreak spot.char then
      readLines literal indent false { block with more := block.more.push spot.char } rest
    else if spot.column == indent then
      readLines literal indent true (block.startLine literal spot.char) rest
    else some (block, spot :: rest)

/-- Reads the blank lines at the front of a block scalar whose indentation is not known yet. The
answer holds the line breaks and the greatest column that blanks or the first line reach. -/
def readMargin : Nat → String → List Spot → Option (Nat × String × List Spot)
  | deepest, breaks, [] => some (deepest, breaks, [])
  | deepest, breaks, spot :: rest =>
    if spot.char == ' ' then readMargin deepest breaks rest
    else if spot.char == '\t' then none
    else if isBreak spot.char then
      readMargin (max deepest spot.column) (breaks.push spot.char) rest
    else some (max deepest spot.column, breaks, spot :: rest)

/-- Reads the signs behind the one that starts a block scalar: how to chomp it, and by how much it
is indented beyond what is around it, in either order. -/
def readBlockSigns (spots : List Spot) : Option (Chomping × Option Nat × List Spot) :=
  match readChomping spots with
  | (some chomping, spots) => do
    let (increment, spots) ← readIncrement spots
    return (chomping, increment, spots)
  | (none, spots) => do
    let (increment, spots) ← readIncrement spots
    match increment, readChomping spots with
    | some _, (some chomping, spots) => return (chomping, increment, spots)
    | _, _ => return (.clip, increment, spots)
where
  readChomping (spots : List Spot) : Option Chomping × List Spot :=
    match spots with
    | spot :: rest =>
      if spot.char == '+' then (some .keep, rest)
      else if spot.char == '-' then (some .strip, rest)
      else (none, spots)
    | [] => (none, [])
  readIncrement (spots : List Spot) : Option (Option Nat × List Spot) :=
    match spots with
    | spot :: rest =>
      if spot.char == '0' then none
      else if spot.char.isDigit then some (some (spot.char.toNat - '0'.toNat), rest)
      else some (none, spots)
    | [] => some (none, [])

/-- Reads a block scalar behind the sign that starts it. `margin` is the least column that its
lines may start at if the text does not say more. -/
def readBlock (literal : Bool) (margin : Nat) (spots : List Spot) :
    Option (String × List Spot) := do
  let (chomping, increment, spots) ← readBlockSigns spots
  let spots ← dropLine? spots
  match increment with
  | some increment =>
    let (block, spots) ← readLines literal (margin - 1 + increment) false {} spots
    return (block.finish chomping, spots)
  | none =>
    let (deepest, breaks, spots) ← readMargin 0 "" spots
    let depth := max deepest (max margin 1)
    let (block, spots) ← readLines literal depth false { more := breaks } spots
    return (block.finish chomping, spots)

end SchemaMigration.Yaml
