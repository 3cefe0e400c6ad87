import SchemaMigration.Sql.Decimal
import SchemaMigration.Text.Numeral

/-!
The values that table cells hold, how a column's affinity changes a value on its way in, and how two
values compare.
-/

namespace SchemaMigration.Sql

/-- A cell of a table. -/
inductive Value where
  | null
  | integer (value : Int)
  | real (value : Decimal)
  | text (value : String)
  | blob (bytes : List UInt8)
  deriving DecidableEq, Repr

/-- What a column does to the values stored in it. -/
inductive Affinity where
  | integer
  | numeric
  | real
  | text
  | blob
  deriving DecidableEq, Repr

namespace Value

/-- Whether an integer fits a cell. -/
def fits (n : Int) : Bool :=
  -(Numeral.signedMax : Int) - 1 ≤ n && n ≤ (Numeral.signedMax : Int)

/-- The cell of an integer numeral; one too large becomes a real. -/
def ofInt (n : Int) : Value :=
  if fits n then .integer n else .real (Decimal.ofInt n)

/-- Whether a character separates words. -/
def isBlank (c : Char) : Bool :=
  c == ' ' || c == '\t' || c == '\n' || c == '\x0b' || c == '\x0c' || c == '\r'

/-- Reads an exponent mark and its digits; anything else is no exponent. -/
def exponent? : List Char → Option Int
  | [] => some 0
  | mark :: rest =>
    if mark == 'e' || mark == 'E' then
      let (negative, digits) := match rest with
        | '+' :: digits => (false, digits)
        | '-' :: digits => (true, digits)
        | digits => (false, digits)
      if digits ≠ [] ∧ digits.all Char.isDigit then
        let n := Int.ofNat (Numeral.accumulate 0 digits)
        some (if negative then -n else n)
      else none
    else none

/-- Reads a numeral without sign and blanks: an integer if it has digits only, else a real. -/
def unsignedNumeral? (text : List Char) : Option Value :=
  let whole := text.takeWhile Char.isDigit
  match text.dropWhile Char.isDigit with
  | [] => if whole = [] then none else some (ofInt (Numeral.accumulate 0 whole))
  | '.' :: rest =>
    let places := rest.takeWhile Char.isDigit
    if whole = [] ∧ places = [] then none
    else (exponent? (rest.dropWhile Char.isDigit)).map fun e =>
      .real (Decimal.nearest ⟨Numeral.accumulate 0 (whole ++ places), e - places.length⟩)
  | rest =>
    if whole = [] then none
    else (exponent? rest).map fun e => .real (Decimal.nearest ⟨Numeral.accumulate 0 whole, e⟩)

/-- The negative of a number; other values have none. -/
def negate : Value → Value
  | .integer n => ofInt (-n)
  | .real d => .real ⟨-d.digits, d.exponent⟩
  | _ => .integer 0

/-- Reads a text that is a numeral as a whole, up to blanks around it. -/
def numeral? (text : String) : Option Value :=
  let trimmed := ((text.toList.dropWhile isBlank).reverse.dropWhile isBlank).reverse
  match trimmed with
  | '-' :: rest =>
    if rest ≠ [] ∧ rest.all Char.isDigit then some (ofInt (-Int.ofNat (Numeral.accumulate 0 rest)))
    else (unsignedNumeral? rest).map negate
  | '+' :: rest => unsignedNumeral? rest
  | rest => unsignedNumeral? rest

/-- Turns a real without fraction into the integer it equals. -/
def settle : Value → Value
  | .real d =>
    match d.toInt? with
    | some n =>
      if -(Numeral.signedMax : Int) ≤ n ∧ n < (Numeral.signedMax : Int) then .integer n else .real d
    | none => .real d
  | value => value

/-- The part at the front of a text that is a numeral. -/
def numeralPart (text : List Char) : List Char :=
  let sign := (text.take 1).filter fun c => c == '+' || c == '-'
  let unsigned := text.drop sign.length
  let whole := unsigned.takeWhile Char.isDigit
  let fraction := match unsigned.drop whole.length with
    | '.' :: rest => '.' :: rest.takeWhile Char.isDigit
    | _ => []
  let exponent := match unsigned.drop (whole ++ fraction).length with
    | mark :: rest =>
      let sign := (rest.take 1).filter fun c => c == '+' || c == '-'
      let digits := (rest.drop sign.length).takeWhile Char.isDigit
      if (mark == 'e' || mark == 'E') && digits ≠ [] then mark :: sign ++ digits else []
    | [] => []
  sign ++ whole ++ fraction ++ exponent

/-- The number at the front of a text, zero if there is none. -/
def leadingNumber (text : List Char) : Value :=
  (numeral? (String.ofList (numeralPart (text.dropWhile isBlank)))).getD (.integer 0)

/-- The number that arithmetic and logic take a value for; null is none. -/
def asNumber : Value → Value
  | .text s => leadingNumber s.toList
  | .blob bytes => leadingNumber (bytes.map fun byte => Char.ofNat byte.toNat)
  | value => value

/-- Makes a text that reads as a number that number. -/
def numericOf : Value → Value
  | .text s => (numeral? s).getD (.text s)
  | value => value

/-- The value as a column of the given affinity stores it. -/
def coerce (affinity : Affinity) (value : Value) : Value :=
  match affinity with
  | .integer | .numeric => settle (numericOf value)
  | .real =>
    match numericOf value with
    | .integer n => .real (Decimal.ofInt n)
    | value => value
  | .text =>
    match value with
    | .integer n => .text (toString n)
    | .real d => .text d.text
    | value => value
  | .blob => value

/-- The number that a numeric value is, to the last digit. -/
def number? : Value → Option Decimal
  | .integer n => some ⟨n, 0⟩
  | .real d => some d.exact
  | _ => none

/-- The class by which values of different kinds are ordered. -/
def rank : Value → Nat
  | .null => 0
  | .integer _ | .real _ => 1
  | .text _ => 2
  | .blob _ => 3

/-- The order of values: nulls, numbers by size, texts by code point, byte strings. -/
def le (a b : Value) : Bool :=
  match a, b with
  | .text s, .text t => !(t < s)
  | .blob s, .blob t => !(t < s)
  | a, b =>
    match a.number?, b.number? with
    | some m, some n => m.le n
    | _, _ => a.rank ≤ b.rank

/-- Whether two values are equal as a comparison sees them. -/
def same (a b : Value) : Bool :=
  a.le b && b.le a

/-- A truth value as a cell. -/
def ofBool (b : Bool) : Value :=
  .integer (if b then 1 else 0)

/-- The truth value of a cell; null has none. -/
def truth? : Value → Option Bool
  | .null => none
  | value =>
    match (asNumber value).number? with
    | some d => some (d.digits ≠ 0)
    | none => some false

end Value

namespace Affinity

/-- Whether `part` occurs in a text. -/
def mentions (part : List Char) : List Char → Bool
  | [] => part.isEmpty
  | c :: rest => part.isPrefixOf (c :: rest) || mentions part rest

/-- The affinity of a declared column type. -/
def ofType (declared : String) : Affinity :=
  let upper := declared.toList.map Char.toUpper
  let has (part : String) := mentions part.toList upper
  if has "INT" then .integer
  else if has "CHAR" || has "CLOB" || has "TEXT" then .text
  else if has "BLOB" || upper.isEmpty then .blob
  else if has "REAL" || has "FLOA" || has "DOUB" then .real
  else .numeric

/-- Whether values of the affinity are numbers where they can be. -/
def isNumeric : Affinity → Bool
  | .integer | .numeric | .real => true
  | .text | .blob => false

end Affinity

end SchemaMigration.Sql
