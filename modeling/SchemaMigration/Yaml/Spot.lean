/-!
The characters of a YAML text and where they stand. Layout carries meaning in YAML, so every reader
works on `Spot`s: characters with their line and column. Each of the line breaks CR, LF, CR LF and
NEL is one LF here; the separators U+2028 and U+2029 end a line too, but stay what they are.
-/

namespace SchemaMigration.Yaml

/-- The characters that a text may hold. -/
def isAllowed (c : Char) : Bool :=
  let n := c.toNat
  n == 0x09 || n == 0x0A || n == 0x0D || (0x20 ≤ n && n ≤ 0x7E) || n == 0x85 ||
    (0xA0 ≤ n && n ≤ 0xFFFD) || 0x10000 ≤ n

def isBreak (c : Char) : Bool :=
  c == '\n' || c == '\u2028' || c == '\u2029'

def isBlank (c : Char) : Bool :=
  c == ' ' || c == '\t'

/-- The characters of anchors, directive names and tag handles. -/
def isWord (c : Char) : Bool :=
  c.isAlphanum || c == '_' || c == '-'

/-- Writes every line break but the two separators as LF. -/
def unifyBreaks : List Char → List Char
  | [] => []
  | '\r' :: '\n' :: rest => '\n' :: unifyBreaks rest
  | c :: rest => (if c == '\r' || c == '\u0085' then '\n' else c) :: unifyBreaks rest

/-- A character and where it stands; `index` counts characters from the start of the text. -/
structure Spot where
  char : Char
  index : Nat
  line : Nat
  column : Nat
  deriving DecidableEq, Repr

/-- The spots of characters of which the first stands at the given place. -/
def Spot.lay (index line column : Nat) : List Char → List Spot
  | [] => []
  | c :: rest =>
    ⟨c, index, line, column⟩ ::
      (if isBreak c then lay (index + 1) (line + 1) 0 rest
        else lay (index + 1) line (column + 1) rest)

/-- The spots of a text, if all its characters are allowed. -/
def spots? (text : String) : Option (List Spot) :=
  if text.toList.all isAllowed then some (Spot.lay 0 0 0 (unifyBreaks text.toList)) else none

/-! ## What comes next -/

/-- Whether a character is next. -/
def atChar (c : Char) (spots : List Spot) : Bool :=
  spots.head?.any (·.char == c)

/-- Whether one of some characters is next. -/
def atAny (cs : List Char) (spots : List Spot) : Bool :=
  spots.head?.any fun spot => cs.contains spot.char

/-- Whether a word cannot go on here: at a blank, a line break or the end. -/
def atWordEnd (spots : List Spot) : Bool :=
  spots.head?.all fun spot => isBlank spot.char || isBreak spot.char

/-- Whether a line starts here with three times the given character and no more of a word. -/
def atDocumentMark (mark : Char) : List Spot → Bool
  | a :: b :: c :: rest =>
    a.column == 0 && a.char == mark && b.char == mark && c.char == mark && atWordEnd rest
  | _ => false

def dropBlanks (spots : List Spot) : List Spot :=
  spots.dropWhile (isBlank ·.char)

/-- Drops a comment that starts here. -/
def dropComment (spots : List Spot) : List Spot :=
  if atChar '#' spots then spots.dropWhile (!isBreak ·.char) else spots

/-- Drops the rest of a line, which may hold nothing but blanks and a comment. -/
def dropLine? (spots : List Spot) : Option (List Spot) :=
  match dropComment (dropBlanks spots) with
  | [] => some []
  | spot :: rest => if isBreak spot.char then some rest else none

end SchemaMigration.Yaml
