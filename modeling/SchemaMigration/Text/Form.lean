import SchemaMigration.Text.Percent

/-!
Form-encoded queries: `key=value` pairs joined by `&`, with a plus sign for a blank.
-/

namespace SchemaMigration.Form

/-- Splits a list at every element for which `separates` holds. -/
def splitOn {α : Type} (separates : α → Bool) : List α → List (List α)
  | [] => [[]]
  | x :: rest =>
    if separates x then [] :: splitOn separates rest
    else match splitOn separates rest with
      | [] => [[x]]
      | first :: more => (x :: first) :: more

/-- The text of one key or value. -/
def decodePart (bytes : Bytes) : String :=
  Utf8.lossy (Percent.decode (bytes.map fun byte => if byte == 0x2B then 0x20 else byte))

/-- The pairs of a query in their order; empty pieces between `&` are no pairs, and a piece without
`=` is a key with an empty value. -/
def pairs (query : String) : List (String × String) :=
  ((splitOn (· == 0x26) (Bytes.ofString query)).filter (· ≠ [])).map fun piece =>
    (decodePart (piece.takeWhile (· != 0x3D)), decodePart ((piece.dropWhile (· != 0x3D)).drop 1))

/-- Bytes that stand for themselves in a form-encoded query. -/
def isPlain (byte : UInt8) : Bool :=
  (0x30 ≤ byte && byte ≤ 0x39) || (0x41 ≤ byte && byte ≤ 0x5A) || (0x61 ≤ byte && byte ≤ 0x7A) ||
    byte.toNat ∈ ['*', '-', '.', '_'].map Char.toNat

/-- One key or value, form-encoded. -/
def encodePart (text : String) : String :=
  String.ofList ((Bytes.ofString text).flatMap fun byte =>
    if byte == 0x20 then ['+'] else if isPlain byte then [Char.ofNat byte.toNat]
    else Percent.escape byte)

/-- The query that `pairs` reads back as the given pairs. -/
def encode (pairs : List (String × String)) : String :=
  "&".intercalate (pairs.map fun (key, value) => encodePart key ++ "=" ++ encodePart value)

end SchemaMigration.Form
