/-!
Decimal numerals, read the way a command line gives them: ASCII digits, an optional sign, and no
value beyond the width asked for.
-/

namespace SchemaMigration.Numeral

/-- The greatest value of 64 bits. -/
def unsignedMax : Nat := 0xFFFFFFFFFFFFFFFF

/-- The greatest value of 64 bits with a sign. -/
def signedMax : Nat := 0x7FFFFFFFFFFFFFFF

/-- The value of a digit string whose digits so far make `value`. -/
def accumulate (value : Nat) : List Char → Nat
  | [] => value
  | digit :: rest => accumulate (value * 10 + (digit.toNat - '0'.toNat)) rest

/-- The value of one or more ASCII digits. -/
def digits? (text : List Char) : Option Nat :=
  if text ≠ [] ∧ text.all Char.isDigit then some (accumulate 0 text) else none

/-- Reads an unsigned numeral of 64 bits: an optional plus sign and digits. -/
def unsigned? (text : List Char) : Option Nat :=
  let magnitude := match text with
    | '+' :: rest => digits? rest
    | text => digits? text
  magnitude.filter (· ≤ unsignedMax)

/-- Reads a signed numeral of 64 bits: an optional sign and digits. -/
def signed? (text : List Char) : Option Int :=
  match text with
  | '+' :: rest => ((digits? rest).filter (· ≤ signedMax)).map Int.ofNat
  | '-' :: rest => ((digits? rest).filter (· ≤ signedMax + 1)).map fun n => -Int.ofNat n
  | text => ((digits? text).filter (· ≤ signedMax)).map Int.ofNat

end SchemaMigration.Numeral
