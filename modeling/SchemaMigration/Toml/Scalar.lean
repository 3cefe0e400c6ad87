import SchemaMigration.Text.Digit
import SchemaMigration.Text.Numeral
import SchemaMigration.Toml.Item

/-!
The scalars of TOML: strings in four notations, numbers, dates and times. Each reader answers what
it read and the characters behind it.
-/

namespace SchemaMigration.Toml

/-- The characters that a string or comment may hold within one line. -/
def isTextChar (c : Char) : Bool :=
  c == '\t' || (0x20 ≤ c.toNat && c.toNat ≠ 0x7F)

def isBlank (c : Char) : Bool :=
  c == ' ' || c == '\t'

/-! ## Strings -/

/-- Where a reader of a string is. -/
inductive StringState where
  | text
  /-- Behind a backslash. -/
  | escape
  /-- Behind a backslash and blanks, with a line break to come. -/
  | escapedBlank
  /-- In the blanks and line breaks that an escaped line break drops. -/
  | trim
  /-- In the digits of a character: so many are to come, and those before made this value. -/
  | code (left value : Nat)
  /-- Behind so many quotes, in a string of several lines. -/
  | quotes (count : Nat)
  deriving DecidableEq, Repr

/-- The characters that a letter behind a backslash stands for. -/
def escapeTable : List (Char × Char) :=
  [('b', '\x08'), ('f', '\x0C'), ('n', '\n'), ('r', '\r'), ('t', '\t'), ('\x22', '\x22'),
    ('\\', '\\')]

/-- How many digits follow a letter behind a backslash. -/
def codeLength? (c : Char) : Option Nat :=
  [('u', 4), ('U', 8)].lookup c

/-- A notation of strings: its quote, and whether backslashes and line breaks mean anything. -/
structure StringStyle where
  quote : Char
  escapes : Bool
  lines : Bool
  deriving DecidableEq, Repr

/-- Reads the rest of a string. One of several lines ends with three quotes, in front of which two
more may belong to the string. -/
def readString (style : StringStyle) :
    StringState → String → List Char → Option (String × List Char)
  | .quotes count, text, [] => if count = 3 ∨ count = 4 then some (closed count text, []) else none
  | _, _, [] => none
  | .quotes count, text, c :: rest =>
    if c == style.quote then
      if count = 4 then some (closed 5 text, rest)
      else readString style (.quotes (count + 1)) text rest
    else if 3 ≤ count then some (closed count text, c :: rest)
    else inText style (text.pushn style.quote count) c rest
  | .escape, text, c :: rest =>
    if style.lines && c == '\n' then readString style .trim text rest
    else if style.lines && isBlank c then readString style .escapedBlank text rest
    else
      match codeLength? c, escapeTable.lookup c with
      | some length, _ => readString style (.code length 0) text rest
      | none, some c => readString style .text (text.push c) rest
      | none, none => none
  | .escapedBlank, text, c :: rest =>
    if c == '\n' then readString style .trim text rest
    else if isBlank c then readString style .escapedBlank text rest
    else none
  | .trim, text, c :: rest =>
    if c == '\n' || isBlank c then readString style .trim text rest else inText style text c rest
  | .code left value, text, c :: rest =>
    match Digit.value? 16 c with
    | none => none
    | some digit =>
      let value := value * 16 + digit
      if left ≤ 1 then
        match Digit.charOfCode? value with
        | some c => readString style .text (text.push c) rest
        | none => none
      else readString style (.code (left - 1) value) text rest
  | .text, text, c :: rest => inText style text c rest
where
  /-- The text without the quotes that close it. -/
  closed (count : Nat) (text : String) : String :=
    text.pushn style.quote (count - 3)
  /-- Reads on from a character of the text. -/
  inText (style : StringStyle) (text : String) (c : Char) (rest : List Char) :
      Option (String × List Char) :=
    if c == style.quote then
      if style.lines then readString style (.quotes 1) text rest else some (text, rest)
    else if style.escapes && c == '\\' then readString style .escape text rest
    else if isTextChar c || (style.lines && c == '\n') then
      readString style .text (text.push c) rest
    else none

/-- Reads a string of one line. -/
def readLineString : List Char → Option (String × List Char)
  | '\x22' :: rest => readString ⟨'\x22', true, false⟩ .text "" rest
  | '\x27' :: rest => readString ⟨'\x27', false, false⟩ .text "" rest
  | _ => none

/-- Reads a string in any notation. A line break right behind three opening quotes is dropped. -/
def readAnyString : List Char → Option (String × List Char)
  | '\x22' :: '\x22' :: '\x22' :: rest =>
    readString ⟨'\x22', true, true⟩ .text "" (dropBreak rest)
  | '\x27' :: '\x27' :: '\x27' :: rest =>
    readString ⟨'\x27', false, true⟩ .text "" (dropBreak rest)
  | cs => readLineString cs
where
  dropBreak : List Char → List Char
    | '\n' :: rest => rest
    | cs => cs

/-! ## Numbers -/

/-- The digits in a base at the front of some characters; a digit may follow another with one `_`
between them. -/
def readDigits (base : Nat) : List Char → List Char × List Char
  | [] => ([], [])
  | c :: rest =>
    if (Digit.value? base c).isSome then
      let (digits, rest) := more rest
      (c :: digits, rest)
    else ([], c :: rest)
where
  more : List Char → List Char × List Char
    | '_' :: c :: rest =>
      if (Digit.value? base c).isSome then
        let (digits, rest) := more rest
        (c :: digits, rest)
      else ([], '_' :: c :: rest)
    | c :: rest =>
      if (Digit.value? base c).isSome then
        let (digits, rest) := more rest
        (c :: digits, rest)
      else ([], c :: rest)
    | [] => ([], [])

/-- Whether there is a minus sign at the front, and what follows the sign, if any. -/
def readSign : List Char → Bool × List Char
  | '+' :: rest => (false, rest)
  | '-' :: rest => (true, rest)
  | cs => (false, cs)

/-- The digits of a decimal integer, which do not start with a zero unless that is all. -/
def readWhole : List Char → Option (List Char × List Char)
  | '0' :: rest => some (['0'], rest)
  | cs =>
    match readDigits 10 cs with
    | ([], _) => none
    | found => some found

/-- Whether a positive decimal `digits × 10 ^ exponent` is beyond all doubles: no less than the
greatest of them and half the distance to where the next would be. -/
def exceedsDouble (digits : Nat) (exponent : Int) : Bool :=
  let limit := Nat.pow 2 1024 - Nat.pow 2 970
  if digits = 0 then false
  else
    let places : Int := (Nat.toDigits 10 digits).length
    if 310 < places + exponent then true
    else if places + exponent < 300 then false
    else if 0 ≤ exponent then limit ≤ digits * Nat.pow 10 exponent.toNat
    else limit * Nat.pow 10 (-exponent).toNat ≤ digits

/-- Reads the digits behind a point. -/
def readFraction : List Char → Option (List Char × List Char)
  | '.' :: rest =>
    match readDigits 10 rest with
    | ([], _) => none
    | found => some found
  | _ => none

/-- Reads an exponent. -/
def readExponent : List Char → Option (Int × List Char)
  | c :: rest =>
    if c == 'e' || c == 'E' then
      let (negative, rest) := readSign rest
      match readDigits 10 rest with
      | ([], _) => none
      | (digits, rest) => do
        let n ← Digit.number? 10 digits
        return (if negative then -Int.ofNat n else Int.ofNat n, rest)
    else none
  | [] => none

/-- Reads a number with a fraction, an exponent or both; it is not greater than all doubles. -/
def readReal (cs : List Char) : Option (List Char) := do
  let (negative, afterSign) := readSign cs
  let (whole, afterWhole) ← readWhole afterSign
  let (fraction, afterFraction) := (readFraction afterWhole).getD ([], afterWhole)
  let (exponent, rest) := (readExponent afterFraction).getD (0, afterFraction)
  if rest.length = afterWhole.length then none
  let digits ← Digit.number? 10 (whole ++ fraction)
  if !negative && exceedsDouble digits (exponent - fraction.length) then none
  return rest

/-- Reads one of the words for values that are no numbers, with an optional sign. -/
def readSpecial (cs : List Char) : Option (List Char) :=
  match (readSign cs).2 with
  | 'i' :: 'n' :: 'f' :: rest => some rest
  | 'n' :: 'a' :: 'n' :: rest => some rest
  | _ => none

/-- Reads an integer of 64 bits: decimal with an optional sign, or in the base that `0x`, `0o` or
`0b` stands for. -/
def readInteger (cs : List Char) : Option (Int × List Char) :=
  match cs with
  | '0' :: 'x' :: rest => based 16 rest
  | '0' :: 'o' :: rest => based 8 rest
  | '0' :: 'b' :: rest => based 2 rest
  | cs => do
    let (negative, rest) := readSign cs
    let (digits, rest) ← readWhole rest
    let n ← Digit.number? 10 digits
    if negative then
      if n ≤ Numeral.signedMax + 1 then return (-Int.ofNat n, rest) else none
    else if n ≤ Numeral.signedMax then return (Int.ofNat n, rest) else none
where
  based (base : Nat) (cs : List Char) : Option (Int × List Char) :=
    match readDigits base cs with
    | ([], _) => none
    | (digits, rest) => do
      let n ← Digit.number? base digits
      if n ≤ Numeral.signedMax then return (Int.ofNat n, rest) else none

/-! ## Dates and times -/

/-- Reads so many digits, which make a number in a range. -/
def readRange (count low high : Nat) (cs : List Char) : Option (Nat × List Char) := do
  let digits := cs.take count
  if digits.length < count ∨ !digits.all Char.isDigit then none
  let n ← Digit.number? 10 digits
  if low ≤ n ∧ n ≤ high then return (n, cs.drop count) else none

/-- Reads one given character. -/
def readChar (c : Char) : List Char → Option (List Char)
  | d :: rest => if c == d then some rest else none
  | [] => none

def isLeapYear (year : Nat) : Bool :=
  year % 4 == 0 && (year % 100 != 0 || year % 400 == 0)

def daysInMonth (year month : Nat) : Nat :=
  if month = 2 then (if isLeapYear year then 29 else 28)
  else if month ∈ [4, 6, 9, 11] then 30
  else 31

/-- Reads a date. -/
def readDate (cs : List Char) : Option (List Char) := do
  let (year, cs) ← readRange 4 0 9999 cs
  let (month, cs) ← readRange 2 1 12 (← readChar '-' cs)
  let (_, cs) ← readRange 2 1 (daysInMonth year month) (← readChar '-' cs)
  return cs

/-- Reads a time of day; seconds may have a fraction. -/
def readTime (cs : List Char) : Option (List Char) := do
  let (_, cs) ← readRange 2 0 23 cs
  let (_, cs) ← readRange 2 0 59 (← readChar ':' cs)
  let (_, cs) ← readRange 2 0 60 (← readChar ':' cs)
  match cs with
  | '.' :: d :: rest => return if d.isDigit then rest.dropWhile Char.isDigit else cs
  | cs => return cs

/-- Reads a distance from UTC. -/
def readOffset : List Char → Option (List Char)
  | c :: cs =>
    if c == 'Z' || c == 'z' then some cs
    else if c == '+' || c == '-' then do
      let (_, cs) ← readRange 2 0 23 cs
      let (_, cs) ← readRange 2 0 59 (← readChar ':' cs)
      return cs
    else none
  | [] => none

/-- Reads a date, a date and a time with or without a distance from UTC, or a time. -/
def readMoment (cs : List Char) : Option (List Char) :=
  match readDate cs with
  | none => readTime cs
  | some afterDate =>
    match afterDate with
    | c :: rest =>
      if c == 'T' || c == 't' || c == ' ' then
        match readTime rest with
        | some afterTime => some ((readOffset afterTime).getD afterTime)
        | none => some afterDate
      else some afterDate
    | [] => some []

/-- Reads a scalar that is no string. -/
def readPlainScalar (cs : List Char) : Option (Item × List Char) :=
  let spelling (rest : List Char) : String := String.ofList (cs.take (cs.length - rest.length))
  match cs with
  | 't' :: 'r' :: 'u' :: 'e' :: rest => some (.flag true, rest)
  | 'f' :: 'a' :: 'l' :: 's' :: 'e' :: rest => some (.flag false, rest)
  | cs =>
    match readMoment cs with
    | some rest => some (.moment (spelling rest), rest)
    | none =>
      match readReal cs <|> readSpecial cs with
      | some rest => some (.real (spelling rest), rest)
      | none => (readInteger cs).map fun (n, rest) => (.integer n, rest)

end SchemaMigration.Toml
