import SchemaMigration.Text.Utf8

/-!
Percent-encoding. `encode` writes the bytes that a set does not allow as `%XX` with upper-case
digits; `decode` reads every `%` that two hexadecimal digits follow and keeps any other.
-/

namespace SchemaMigration.Percent

/-- The upper-case hexadecimal digit of a value below sixteen. -/
def hexDigit (value : Nat) : Char :=
  if value < 10 then Char.ofNat ('0'.toNat + value) else Char.ofNat ('A'.toNat + (value - 10))

/-- The value of a hexadecimal digit in either case. -/
def hexValue? (byte : UInt8) : Option Nat :=
  let n := byte.toNat
  if 48 ≤ n ∧ n ≤ 57 then some (n - 48)
  else if 65 ≤ n ∧ n ≤ 70 then some (n - 55)
  else if 97 ≤ n ∧ n ≤ 102 then some (n - 87)
  else none

/-- One byte as `%XX`. -/
def escape (byte : UInt8) : List Char :=
  ['%', hexDigit (byte.toNat / 16), hexDigit (byte.toNat % 16)]

/-- Writes the bytes for which `escaped` holds as `%XX` and the others as they are. -/
def encode (escaped : UInt8 → Bool) (bytes : Bytes) : List Char :=
  bytes.flatMap fun byte => if escaped byte then escape byte else [Char.ofNat byte.toNat]

/-- Replaces each `%XX` by its byte. -/
def decode : Bytes → Bytes
  | [] => []
  | 0x25 :: high :: low :: rest =>
    match hexValue? high, hexValue? low with
    | some h, some l => UInt8.ofNat (h * 16 + l) :: decode rest
    | _, _ => 0x25 :: decode (high :: low :: rest)
  | byte :: rest => byte :: decode rest
  termination_by bytes => bytes.length

/-! ## Sets -/

/-- Control characters and everything outside ASCII. -/
def control (byte : UInt8) : Bool :=
  byte < 0x20 || 0x7F ≤ byte

/-- Bytes that a URL path does not hold as they are. -/
def path (byte : UInt8) : Bool :=
  control byte || byte.toNat ∈ [' ', '"', '<', '>', '\x60', '#', '?', '\x7b', '\x7d'].map Char.toNat

/-- Bytes that one segment of the path of a file URL does not hold as they are. -/
def segment (byte : UInt8) : Bool :=
  path byte || byte.toNat ∈ ['/', '%', '\\'].map Char.toNat

end SchemaMigration.Percent
