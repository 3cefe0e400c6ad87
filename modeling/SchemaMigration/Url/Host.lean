import SchemaMigration.Text.Digit
import SchemaMigration.Url.Domain
import SchemaMigration.Url.Fault

/-!
Hosts of URLs: domain names, and addresses in the notations that URLs allow, each with the one text
that it is written as.
-/

namespace SchemaMigration.Url

/-- The host of a URL. -/
inductive Host where
  | domain (name : String)
  | ipv4 (address : Nat)
  | ipv6 (pieces : List Nat)
  deriving DecidableEq, Repr

namespace Host

/-! ## Version 4 addresses -/

/-- A number of an address: decimal, octal behind `0`, or hexadecimal behind `0x`. -/
def addressNumber? : List Char → Option Nat
  | [] => none
  | '0' :: 'x' :: digits | '0' :: 'X' :: digits => Digit.number? 16 digits
  | '0' :: c :: digits => Digit.number? 8 (c :: digits)
  | digits => Digit.number? 10 digits

/-- The parts of a domain between dots, without an empty last one. -/
def addressParts (domain : List Char) : List (List Char) :=
  let parts := Form.splitOn (· == '.') domain
  if parts.getLast? = some [] then parts.dropLast else parts

/-- Whether the last part of a domain is a number, so that the domain must be an address. -/
def endsInNumber (domain : List Char) : Bool :=
  let parts := Form.splitOn (· == '.') domain
  let last := match parts.reverse with
    | [] :: before :: _ => some before
    | [[]] => none
    | last :: _ => some last
    | [] => none
  match last with
  | none => false
  | some last =>
    (last ≠ [] ∧ last.all Char.isDigit) || (addressNumber? last).isSome

/-- Reads an address of one to four numbers; the last one fills the bytes that the others leave. -/
def readIpv4 (domain : List Char) : Except Fault Nat :=
  let parts := addressParts domain
  match parts.mapM addressNumber? with
  | none => .error .invalidIpv4
  | some numbers =>
    match numbers.reverse with
    | [] => .error .invalidIpv4
    | last :: before =>
      let leading := before.reverse
      if 4 < numbers.length then .error .invalidIpv4
      else if Nat.pow 256 (4 - leading.length) ≤ last then .error .invalidIpv4
      else if leading.any (255 < ·) then .error .invalidIpv4
      else .ok (leading.zipIdx.foldl (fun address (n, i) => address + n * Nat.pow 256 (3 - i)) last)

/-! ## Version 6 addresses -/

/-- One to four hexadecimal digits. -/
def readPiece? (digits : List Char) : Option Nat :=
  if digits = [] ∨ 4 < digits.length then none else Digit.number? 16 digits

/-- One of the four decimal numbers behind a version 6 address, below 256 and without leading
zeros. -/
def readByte? (digits : List Char) : Option Nat :=
  if digits = [] ∨ 3 < digits.length ∨ (digits.head? = some '0' ∧ 1 < digits.length) then none
  else (Digit.number? 10 digits).filter (· < 256)

/-- The pieces between colons, the last of which may be four decimal numbers. -/
def readPieces? : List (List Char) → Option (List Nat)
  | [] => some []
  | [last] =>
    if last.contains '.' then
      match (Form.splitOn (· == '.') last).mapM readByte? with
      | some [a, b, c, d] => some [a * 256 + b, c * 256 + d]
      | _ => none
    else (readPiece? last).map ([·])
  | first :: rest => do
    let piece ← readPiece? first
    let pieces ← readPieces? rest
    return piece :: pieces

/-- Splits a text at the first double colon. -/
def splitGap? : List Char → Option (List Char × List Char)
  | ':' :: ':' :: rest => some ([], rest)
  | c :: rest => (splitGap? rest).map fun (before, after) => (c :: before, after)
  | [] => none

/-- Reads the text between the brackets. -/
def readIpv6 (text : List Char) : Except Fault (List Nat) :=
  let piecesOf (part : List Char) : Option (List Nat) :=
    if part = [] then some [] else readPieces? (Form.splitOn (· == ':') part)
  let pieces := match splitGap? text with
    | none => (piecesOf text).filter (·.length = 8)
    | some (before, after) => do
      if before.contains '.' then none
      let left ← piecesOf before
      let right ← piecesOf after
      if left.length + right.length ≤ 7 then
        some (left ++ List.replicate (8 - left.length - right.length) 0 ++ right)
      else none
  match pieces with
  | some pieces => .ok pieces
  | none => .error .invalidIpv6

/-- Lower-case hexadecimal digits without leading zeros. -/
def hexText (n : Nat) : String :=
  String.ofList (Nat.toDigits 16 n)

/-- Start and length of the first longest run of zeros, if one is longer than one piece. -/
def longestGap? (pieces : List Nat) : Option (Nat × Nat) :=
  let runs := (List.range pieces.length).map fun i =>
    (i, ((pieces.drop i).takeWhile (· = 0)).length)
  let best := runs.foldl (fun best run => if best.2 < run.2 then run else best) (0, 0)
  if 1 < best.2 then some best else none

/-- The text of pieces with colons between them. -/
def joinPieces (pieces : List Nat) : String :=
  ":".intercalate (pieces.map hexText)

/-! ## Hosts -/

/-- The text of a host. -/
def text : Host → String
  | domain name => name
  | ipv4 address =>
    ".".intercalate ([3, 2, 1, 0].map fun i => toString (address / Nat.pow 256 i % 256))
  | ipv6 pieces =>
    match longestGap? pieces with
    | some (start, length) =>
      "[" ++ joinPieces (pieces.take start) ++ "::" ++ joinPieces (pieces.drop (start + length)) ++
        "]"
    | none => "[" ++ joinPieces pieces ++ "]"

/-- Reads a bracketed host. -/
def readBracketed (text : List Char) : Except Fault Host :=
  if text.getLast? = some ']' then ipv6 <$> readIpv6 (text.drop 1).dropLast
  else .error .invalidIpv6

/-- Reads the host of a URL whose scheme has domains. -/
def read (text : List Char) : Except Fault Host :=
  if text.head? = some '[' then readBracketed text
  else
    match (Percent.decode (Bytes.ofString (String.ofList text))).text? with
    | none => .error .invalidDomain
    | some decoded =>
      match Domain.toAscii? decoded.toList with
      | none => .error .invalidDomain
      | some [] => .error .emptyHost
      | some name =>
        if endsInNumber name then ipv4 <$> readIpv4 name
        else .ok (.domain (String.ofList name))

/-- Checks the host of a URL whose scheme has none of its own rules. -/
def checkOpaque (text : List Char) : Except Fault Unit :=
  if text.head? = some '[' then discard (readBracketed text)
  else if text.any fun c =>
      c ∈ ['\x00', '\t', '\n', '\r', ' ', '#', '/', ':', '<', '>', '?', '@', '[', '\\', ']', '^',
        '|'] then .error .invalidHostCharacter
  else .ok ()

end Host

end SchemaMigration.Url
