/-!
Numbers that are not stored as integers. A cell keeps 53 binary digits of such a number; it is held
here as the decimal with the fewest digits that names the same 53, so that equal cells have equal
digits and exponents.
-/

namespace SchemaMigration.Sql

/-- A number `digits * 10 ^ exponent`. -/
structure Decimal where
  digits : Int
  exponent : Int
  deriving DecidableEq, Repr

namespace Decimal

/-- Moves trailing zeros of the digits into the exponent. -/
def normalizeWith : Nat → Decimal → Decimal
  | 0, d => d
  | fuel + 1, d =>
    if d.digits = 0 then ⟨0, 0⟩
    else if d.digits % 10 = 0 then normalizeWith fuel ⟨d.digits / 10, d.exponent + 1⟩
    else d

/-- The form in which equal numbers have equal digits and exponents. -/
def normalize (d : Decimal) : Decimal :=
  normalizeWith (d.digits.natAbs.log2 + 1) d

/-- How many digits stand before the point; zeros behind the point count negative. -/
def magnitude (d : Decimal) : Int :=
  (toString d.digits.natAbs).length + d.exponent

/-! ## Binary precision -/

/-- `numerator / denominator` to the nearest natural number, a half to the even one. -/
def roundDiv (numerator denominator : Nat) : Nat :=
  let quotient := numerator / denominator
  let rest := 2 * (numerator % denominator)
  if rest < denominator then quotient
  else if denominator < rest then quotient + 1
  else quotient + quotient % 2

/-- A power of a number; one for an exponent below zero. -/
def power (base : Nat) (exponent : Int) : Nat :=
  Nat.pow base exponent.toNat

/-- A number `mantissa * 2 ^ exponent` with a mantissa below `2 ^ 53`. -/
structure Binary where
  mantissa : Nat
  exponent : Int
  deriving DecidableEq, Repr

/-- The least exponent of a binary number. -/
def leastExponent : Int := -1074

/-- The greatest exponent of a binary number. -/
def greatestExponent : Int := 971

/-- The binary number nearest to the absolute value. -/
def binary (d : Decimal) : Binary :=
  let numerator := d.digits.natAbs * power 10 d.exponent
  let denominator := power 10 (-d.exponent)
  let mantissa (exponent : Int) : Nat :=
    roundDiv (numerator * power 2 (-exponent)) (denominator * power 2 exponent)
  let exponent := max leastExponent ((numerator.log2 : Int) - denominator.log2 - 53)
  if mantissa exponent < power 2 53 then ⟨mantissa exponent, exponent⟩
  else if mantissa (exponent + 1) < power 2 53 then ⟨mantissa (exponent + 1), exponent + 1⟩
  else ⟨power 2 52, exponent + 2⟩

/-- The multiple of `10 ^ place` nearest to a binary number. -/
def Binary.rounded (b : Binary) (place : Int) : Decimal :=
  normalize
    ⟨roundDiv (b.mantissa * power 2 b.exponent * power 10 (-place))
      (power 2 (-b.exponent) * power 10 place), place⟩

/-- What stands for all numbers too large for a binary number. -/
def beyond (negative : Bool) : Decimal :=
  ⟨if negative then -1 else 1, 400⟩

def isBeyond (d : Decimal) : Bool :=
  d.exponent = 400

/-- The decimal with the fewest digits among those to which the same binary number is nearest. -/
def nearest (d : Decimal) : Decimal :=
  if d.digits = 0 ∨ d.magnitude < -330 then ⟨0, 0⟩
  else if 310 < d.magnitude then beyond (d.digits < 0)
  else
    let b := d.binary
    if greatestExponent < b.exponent then beyond (d.digits < 0)
    else
      let candidates := (List.range 17).map fun (n : Nat) => b.rounded (d.magnitude - 1 - n)
      let found := (candidates.find? fun candidate => candidate.binary = b).getD (normalize d)
      if d.digits < 0 then ⟨-found.digits, found.exponent⟩ else found

def ofInt (n : Int) : Decimal :=
  nearest ⟨n, 0⟩

/-- The decimal that equals the binary number nearest to a number, whatever digits that takes. -/
def exact (d : Decimal) : Decimal :=
  if d.digits = 0 ∨ d.isBeyond then d
  else
    let b := d.binary
    let mantissa : Int := if d.digits < 0 then -b.mantissa else b.mantissa
    normalize <| if 0 ≤ b.exponent then ⟨mantissa * power 2 b.exponent, 0⟩
      else ⟨mantissa * power 5 (-b.exponent), b.exponent⟩

/-- The integer that a number is, if it is one and has a sensible size. -/
def toInt? (d : Decimal) : Option Int :=
  if 20 < d.magnitude then none
  else
    let d := d.exact
    if 0 ≤ d.exponent then some (d.digits * power 10 d.exponent) else none

/-! ## Order -/

/-- The digits of a number written with the given exponent, which is at most its own. -/
def scaled (d : Decimal) (exponent : Int) : Int :=
  d.digits * power 10 (d.exponent - exponent)

def le (a b : Decimal) : Bool :=
  let exponent := min a.exponent b.exponent
  a.scaled exponent ≤ b.scaled exponent

/-! ## Texts -/

/-- Digits with a point `places` digits before their end, and a zero before the point if nothing
else stands there. -/
def withPoint (digits : List Char) (places : Nat) : List Char :=
  let padded := List.replicate (places + 1 - digits.length) '0' ++ digits
  padded.take (padded.length - places) ++ '.' :: padded.drop (padded.length - places)

/-- The sign and the digits of a number. -/
def parts (d : Decimal) : String × List Char :=
  (if d.digits < 0 then "-" else "", (toString d.digits.natAbs).toList)

/-- Positional text; a whole number has no point. -/
def positional (d : Decimal) : String :=
  let (sign, digits) := d.parts
  if d.isBeyond then sign ++ "inf"
  else if 0 ≤ d.exponent then
    sign ++ String.ofList (digits ++ List.replicate d.exponent.toNat '0')
  else sign ++ String.ofList (withPoint digits (-d.exponent).toNat)

/-- The text that a column of texts keeps: at most 15 digits, always a point, and an exponent for
numbers from `10 ^ 15` on and below `10 ^ -4`. -/
def text (d : Decimal) : String :=
  let short := d.binary.rounded (d.magnitude - 15)
  let sign := d.parts.1
  let digits := short.parts.2
  let exponent := short.magnitude - 1
  if d.isBeyond then sign ++ "Inf"
  else if d.digits = 0 then "0.0"
  else if -4 ≤ exponent ∧ exponent < 15 then
    if 0 ≤ short.exponent then
      sign ++ String.ofList (digits ++ List.replicate short.exponent.toNat '0') ++ ".0"
    else sign ++ String.ofList (withPoint digits (-short.exponent).toNat)
  else
    let fraction := if digits.length = 1 then ['0'] else digits.drop 1
    let power := (toString exponent.natAbs).toList
    sign ++ String.ofList
      (digits.take 1 ++ '.' :: fraction ++ 'e' :: (if exponent < 0 then '-' else '+') ::
        List.replicate (2 - power.length) '0' ++ power)

end Decimal

end SchemaMigration.Sql
