import SchemaMigration.Text.Utf8
import SchemaMigration.Yaml.Scalar

/-!
The tokens of YAML text. `Token.scan?` turns indentation into tokens that open and close block
collections, and marks the keys of mappings: a key is known only by the `:` behind it, so the place
where one may have started is kept, and the tokens that open it are put there afterwards.
-/

namespace SchemaMigration.Yaml

inductive Token where
  | versionDirective (major minor : Nat)
  | tagDirective (handle start : String)
  | documentStart
  | documentEnd
  | blockSequenceStart
  | blockMappingStart
  | blockEnd
  | flowSequenceStart
  | flowSequenceEnd
  | flowMappingStart
  | flowMappingEnd
  | blockEntry
  | flowEntry
  | key
  | value
  | anchor (name : String)
  | alias (name : String)
  | tag (handle suffix : String)
  | scalar (text : String) (style : ScalarStyle)
  deriving DecidableEq, Repr

/-! ## Tags -/

/-- The characters of a tag; those that also are signs of flow collections only if `verbatim`
holds. -/
def isTagChar (verbatim : Bool) (c : Char) : Bool :=
  isWord c || [';', '/', '?', ':', '@', '&', '=', '+', '$', '.', '%', '!', '~', '*', '\x27', '(',
    ')'].contains c || (verbatim && [',', '[', ']'].contains c)

/-- How many bytes the UTF-8 sequence of a first byte takes. -/
def sequenceLength? (first : Nat) : Option Nat :=
  if first < 0x80 then some 1
  else if first < 0xC0 then none
  else if first < 0xE0 then some 2
  else if first < 0xF0 then some 3
  else if first < 0xF8 then some 4
  else none

/-- The bytes of the characters of a tag. Each `%` starts an escaped byte, and escaped bytes come
in whole sequences: `left` more of them have to follow at once. -/
def tagBytes? : Nat → List Char → Option Bytes
  | left, '%' :: high :: low :: rest => do
    let byte := (← Digit.value? 16 high) * 16 + (← Digit.value? 16 low)
    if left = 0 then
      let length ← sequenceLength? byte
      return UInt8.ofNat byte :: (← tagBytes? (length - 1) rest)
    else if 0x80 ≤ byte ∧ byte < 0xC0 then
      return UInt8.ofNat byte :: (← tagBytes? (left - 1) rest)
    else none
  | 0, [] => some []
  | 0, c :: rest => do
    if c == '%' then none
    return UInt8.ofNat c.toNat :: (← tagBytes? 0 rest)
  | _ + 1, _ => none
  termination_by _ cs => cs.length

/-- The text of the characters of a tag; a NUL ends it. -/
def tagText? (cs : List Char) : Option String :=
  (tagBytes? 0 cs).map fun bytes => Utf8.lossy (bytes.takeWhile (· ≠ 0))

/-- Reads the characters of a tag. -/
def readTagChars (verbatim : Bool) (spots : List Spot) : List Char × List Spot :=
  ((spots.takeWhile (isTagChar verbatim ·.char)).map (·.char),
    spots.dropWhile (isTagChar verbatim ·.char))

/-- Reads a word between two `!`, the second of which may be missing. -/
def readHandle (spots : List Spot) : Option (String × Bool × List Spot) :=
  match spots with
  | spot :: rest =>
    if spot.char == '!' then
      let word := String.ofList ((rest.takeWhile (isWord ·.char)).map (·.char))
      match rest.dropWhile (isWord ·.char) with
      | next :: rest' =>
        if next.char == '!' then some ("!" ++ word ++ "!", true, rest')
        else some ("!" ++ word, false, next :: rest')
      | [] => some ("!" ++ word, false, [])
    else none
  | [] => none

/-- Whether a tag may end here. -/
def atTagEnd (flow : Bool) (spots : List Spot) : Bool :=
  atWordEnd spots || (flow && atChar ',' spots)

/-- Reads a tag: `!<...>` whole, `!word!suffix` with the handle `!word!`, or `!suffix` with the
handle `!`. -/
def readTag (flow : Bool) (spots : List Spot) : Option (Token × List Spot) := do
  let (token, spots) ← match spots with
    | _ :: angle :: rest =>
      if angle.char == '<' then
        match readTagChars true rest with
        | (cs@(_ :: _), close :: rest) =>
          if close.char == '>' then some (.tag "" (← tagText? cs), rest) else none
        | _ => none
      else readShort spots
    | spots => readShort spots
  if atTagEnd flow spots then return (token, spots) else none
where
  readShort (spots : List Spot) : Option (Token × List Spot) := do
    let (handle, closed, rest) ← readHandle spots
    let (cs, rest) := readTagChars false rest
    let suffix ← tagText? cs
    if closed then
      if cs = [] then none else return (.tag handle suffix, rest)
    else
      let suffix := (handle.drop 1).toString ++ suffix
      return (if suffix == "" then .tag "" "!" else .tag "!" suffix, rest)

/-! ## Directives and anchors -/

/-- Reads the digits of a version, at most nine. -/
def readVersionNumber (spots : List Spot) : Option (Nat × List Spot) :=
  let digits := (spots.takeWhile (·.char.isDigit)).map (·.char)
  if digits = [] ∨ 9 < digits.length then none
  else (Digit.number? 10 digits).map (·, spots.dropWhile (·.char.isDigit))

/-- Reads a directive behind its `%`, with the rest of its line. -/
def readDirective (spots : List Spot) : Option (Token × List Spot) := do
  let name := String.ofList ((spots.takeWhile (isWord ·.char)).map (·.char))
  let spots := spots.dropWhile (isWord ·.char)
  if !atWordEnd spots then none
  let spots := dropBlanks spots
  let (token, spots) ←
    if name == "YAML" then do
      let (major, spots) ← readVersionNumber spots
      if !atChar '.' spots then none
      let (minor, spots) ← readVersionNumber (spots.drop 1)
      some (Token.versionDirective major minor, spots)
    else if name == "TAG" then do
      let (handle, closed, spots) ← readHandle spots
      if !closed && handle != "!" then none
      if !(spots.head?.any fun spot => isBlank spot.char) then none
      let (cs, spots) := readTagChars true (dropBlanks spots)
      if cs = [] || !atWordEnd spots then none
      some (Token.tagDirective handle (← tagText? cs), spots)
    else none
  return (token, ← dropLine? spots)

/-- Reads the name of an anchor or alias behind its sign. -/
def readName (spots : List Spot) : Option (String × List Spot) :=
  let name := (spots.takeWhile (isWord ·.char)).map (·.char)
  let rest := spots.dropWhile (isWord ·.char)
  if name ≠ [] ∧ (atWordEnd rest || atAny ['?', ':', ',', ']', '\x7d', '%', '@', '\x60'] rest) then
    some (String.ofList name, rest)
  else none

/-! ## The scanner -/

/-- A place where a key may have started. -/
structure KeyStart where
  /-- How many tokens stand before it. -/
  place : Nat
  /-- Whether nothing but a key can stand there. -/
  required : Bool
  spot : Spot
  deriving DecidableEq, Repr

/-- What is known between two tokens. -/
structure Scanner where
  tokens : Array Token := #[]
  /-- Where the last key of the innermost collection may have started. -/
  keyStart : Option KeyStart := none
  /-- The same for the collections around the innermost, when that is a flow collection. -/
  outerKeyStarts : List (Option KeyStart) := []
  keyAllowed : Bool := true
  /-- The least column of something inside the innermost block collection, zero outside all. -/
  margin : Nat := 0
  outerMargins : List Nat := []
  deriving DecidableEq, Repr

namespace Scanner

/-- Whether the scanner is in a flow collection. -/
def inFlow (scanner : Scanner) : Bool :=
  !scanner.outerKeyStarts.isEmpty

def push (scanner : Scanner) (token : Token) : Scanner :=
  { scanner with tokens := scanner.tokens.push token }

/-- Puts a token in front of the one at a place. -/
def insert (scanner : Scanner) (place : Nat) (token : Token) : Scanner :=
  { scanner with tokens := scanner.tokens.insertIdxIfInBounds place token }

def allowKey (scanner : Scanner) (allowed : Bool) : Scanner :=
  { scanner with keyAllowed := allowed }

/-- Gives up the key that may have started, unless there has to be one. -/
def dropKey? (scanner : Scanner) : Option Scanner :=
  if scanner.keyStart.any (·.required) then none else some { scanner with keyStart := none }

/-- Notes that a key may start at a spot. -/
def startKey? (scanner : Scanner) (spot : Spot) : Option Scanner :=
  if scanner.keyAllowed then do
    let scanner ← scanner.dropKey?
    let required := !scanner.inFlow && scanner.margin == spot.column + 1
    return { scanner with keyStart := some { place := scanner.tokens.size, required, spot } }
  else some scanner

/-- Whether a key that started somewhere could still go on at a spot: it is within one line and
1024 characters. -/
def KeyStart.reaches (start : KeyStart) (spot : Spot) : Bool :=
  start.spot.line == spot.line && spot.index ≤ start.spot.index + 1024

/-- Gives up the keys that cannot reach a spot. -/
def dropStaleKeys? (scanner : Scanner) (spot : Spot) : Option Scanner := do
  let fresh (start : Option KeyStart) : Option (Option KeyStart) :=
    match start with
    | none => some none
    | some start =>
      if KeyStart.reaches start spot then some (some start)
      else if start.required then none
      else some none
  return { scanner with
    keyStart := ← fresh scanner.keyStart
    outerKeyStarts := ← scanner.outerKeyStarts.mapM fresh }

/-- Opens a block collection for something at a column, unless one is open there. Its token goes in
front of the one at a place, or behind all. -/
def indent (scanner : Scanner) (column : Nat) (place : Option Nat) (token : Token) : Scanner :=
  if scanner.inFlow || column < scanner.margin then scanner
  else
    let scanner := match place with
      | some place => scanner.insert place token
      | none => scanner.push token
    { scanner with margin := column + 1, outerMargins := scanner.margin :: scanner.outerMargins }

/-- Closes the block collections that something at a column is outside of: those that start further
right. `least` is one more than the column, or zero to close all. -/
def unindent (scanner : Scanner) (least : Nat) : Scanner :=
  if scanner.inFlow then scanner else close scanner scanner.outerMargins
where
  close (scanner : Scanner) : List Nat → Scanner
    | [] => scanner
    | outer :: rest =>
      if least < scanner.margin then
        close { scanner.push .blockEnd with margin := outer, outerMargins := rest } rest
      else scanner

/-- Adds a sign that ends what came before. -/
def sign? (scanner : Scanner) (token : Token) (keyAllowed : Bool) : Option Scanner := do
  return ((← scanner.dropKey?).push token).allowKey keyAllowed

/-- Adds something that a key may start with. -/
def content? (scanner : Scanner) (spot : Spot) (token : Token) (keyAllowed : Bool) :
    Option Scanner := do
  return ((← scanner.startKey? spot).push token).allowKey keyAllowed

/-- Adds the sign that opens a flow collection. -/
def openFlow? (scanner : Scanner) (spot : Spot) (token : Token) : Option Scanner := do
  let scanner ← scanner.content? spot token true
  return { scanner with
    keyStart := none, outerKeyStarts := scanner.keyStart :: scanner.outerKeyStarts }

/-- Adds the sign that closes a flow collection. -/
def closeFlow? (scanner : Scanner) (token : Token) : Option Scanner := do
  let scanner ← scanner.sign? token false
  match scanner.outerKeyStarts with
  | [] => return scanner
  | outer :: rest => return { scanner with keyStart := outer, outerKeyStarts := rest }

/-- Adds the `-` of an entry or the `?` of a key, which open a block collection where needed. -/
def blockSign? (scanner : Scanner) (spot : Spot) (token collection : Token)
    (keyAllowed : Bool) : Option Scanner :=
  if scanner.inFlow then scanner.sign? token keyAllowed
  else if scanner.keyAllowed then
    (scanner.indent spot.column none collection).sign? token keyAllowed
  else none

/-- Adds the `:` of a value. If a key may have started before, it did. -/
def value? (scanner : Scanner) (spot : Spot) : Option Scanner :=
  match scanner.keyStart with
  | some start =>
    let scanner := scanner.insert start.place .key
    let scanner := scanner.indent start.spot.column (some start.place) .blockMappingStart
    some ({ scanner with keyStart := none, keyAllowed := false }.push .value)
  | none =>
    if scanner.inFlow then some ((scanner.push .value).allowKey false)
    else if scanner.keyAllowed then
      some (((scanner.indent spot.column none .blockMappingStart).push .value).allowKey true)
    else none

/-- Drops blanks, comments and line breaks. A tab is a blank where no key may start, and so is a
byte order mark at the start of a line. -/
def dropSpace (scanner : Scanner) : Bool → List Spot → Scanner × List Spot
  | _, [] => (scanner, [])
  | inComment, spot :: rest =>
    if isBreak spot.char then
      dropSpace (if scanner.inFlow then scanner else scanner.allowKey true) false rest
    else if inComment then dropSpace scanner true rest
    else if spot.char == ' ' || (spot.char == '\uFEFF' && spot.column == 0) ||
        (spot.char == '\t' && (scanner.inFlow || !scanner.keyAllowed)) then
      dropSpace scanner false rest
    else if spot.char == '#' then dropSpace scanner true rest
    else (scanner, spot :: rest)

/-- The characters that no plain scalar starts with. -/
def indicators : List Char :=
  ['-', '?', ':', ',', '[', ']', '\x7b', '\x7d', '#', '&', '*', '!', '|', '>', '\x27', '\x22', '%',
    '@', '\x60']

/-- Whether a plain scalar starts with a character in front of others. -/
def startsPlain (flow : Bool) (c : Char) (rest : List Spot) : Bool :=
  !(isBlank c || isBreak c || indicators.contains c) ||
    (c == '-' && !(rest.head?.any fun spot => isBlank spot.char)) ||
    (!flow && (c == '?' || c == ':') && !atWordEnd rest)

/-- Reads the token that starts at a spot. -/
def token? (scanner : Scanner) (spot : Spot) (rest : List Spot) :
    Option (Scanner × List Spot) := do
  let here := spot :: rest
  let c := spot.char
  let flow := scanner.inFlow
  if spot.column == 0 && c == '%' then
    let (token, rest) ← readDirective rest
    return (← (scanner.unindent 0).sign? token false, rest)
  else if atDocumentMark '-' here then
    return (← (scanner.unindent 0).sign? .documentStart false, rest.drop 2)
  else if atDocumentMark '.' here then
    return (← (scanner.unindent 0).sign? .documentEnd false, rest.drop 2)
  else if c == '[' then return (← scanner.openFlow? spot .flowSequenceStart, rest)
  else if c == '\x7b' then return (← scanner.openFlow? spot .flowMappingStart, rest)
  else if c == ']' then return (← scanner.closeFlow? .flowSequenceEnd, rest)
  else if c == '\x7d' then return (← scanner.closeFlow? .flowMappingEnd, rest)
  else if c == ',' then return (← scanner.sign? .flowEntry true, rest)
  else if c == '-' && atWordEnd rest then
    return (← scanner.blockSign? spot .blockEntry .blockSequenceStart true, rest)
  else if c == '?' && (flow || atWordEnd rest) then
    return (← scanner.blockSign? spot .key .blockMappingStart !flow, rest)
  else if c == ':' && (flow || atWordEnd rest) then return (← scanner.value? spot, rest)
  else if c == '*' then
    let (name, rest) ← readName rest
    return (← scanner.content? spot (.alias name) false, rest)
  else if c == '&' then
    let (name, rest) ← readName rest
    return (← scanner.content? spot (.anchor name) false, rest)
  else if c == '!' then
    let (token, rest) ← readTag flow here
    return (← scanner.content? spot token false, rest)
  else if (c == '|' || c == '>') && !flow then
    let literal := c == '|'
    let (text, rest) ← readBlock literal scanner.margin rest
    return (← scanner.sign? (.scalar text (if literal then .literal else .folded)) true, rest)
  else if c == '\x27' || c == '\x22' then
    let single := c == '\x27'
    let (text, rest) ← readQuoted single .word "" rest
    let style := if single then ScalarStyle.singleQuoted else .doubleQuoted
    return (← scanner.content? spot (.scalar text style) false, rest)
  else if startsPlain flow c rest then
    let (text, broken, rest) ← readPlain flow scanner.margin none "" here
    let scanner ← scanner.content? spot (.scalar text .plain) false
    return (if broken then scanner.allowKey true else scanner, rest)
  else none

/-- Reads tokens to the end. `bound` is at least the number of characters, of which each token takes
one or more. -/
def tokens? : Nat → Scanner → List Spot → Option Scanner
  | 0, _, _ => none
  | bound + 1, scanner, spots =>
    match scanner.dropSpace false spots with
    | (scanner, []) => (scanner.unindent 0).dropKey?
    | (scanner, spot :: rest) => do
      let scanner ← scanner.dropStaleKeys? spot
      let (scanner, rest) ← (scanner.unindent (spot.column + 1)).token? spot rest
      tokens? bound scanner rest

end Scanner

/-- The tokens of a text, unless it is broken. -/
def Token.scan? (text : String) : Option (List Token) := do
  let spots ← spots? text
  let scanner ← Scanner.tokens? (spots.length + 1) {} spots
  return scanner.tokens.toList

end SchemaMigration.Yaml
