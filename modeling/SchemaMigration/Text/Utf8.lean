/-!
Byte strings and UTF-8. `decode` accepts exactly the well-formed byte strings and otherwise says
where the first ill-formed sequence starts and how long it is; `lossy` puts U+FFFD in the place of
each such sequence.
-/

namespace SchemaMigration

/-- A string of bytes, as file names, file contents and percent-decoded text are made of. -/
abbrev Bytes := List UInt8

/-- The UTF-8 bytes of a text. -/
def Bytes.ofString (text : String) : Bytes :=
  text.toList.flatMap String.utf8EncodeChar

namespace Utf8

/-- Why a byte string is not UTF-8: `length` is `none` when it ends inside a sequence that more
bytes could complete. -/
structure Fault where
  index : Nat
  length : Option Nat
  deriving DecidableEq, Repr

/-- The text of a fault. -/
def Fault.message (fault : Fault) : String :=
  match fault.length with
  | some length => "invalid utf-8 sequence of " ++ toString length ++ " bytes from index " ++
      toString fault.index
  | none => "incomplete utf-8 byte sequence from index " ++ toString fault.index

/-- A continuation byte carries six bits under the mark `10`. -/
def isContinuation (byte : UInt8) : Bool :=
  0x80 ≤ byte && byte ≤ 0xBF

/-- The bytes that may follow the first of a three-byte sequence: overlong forms and surrogates are
excluded. -/
def followsThree (first second : UInt8) : Bool :=
  if first == 0xE0 then 0xA0 ≤ second && second ≤ 0xBF
  else if first == 0xED then 0x80 ≤ second && second ≤ 0x9F
  else isContinuation second

/-- The bytes that may follow the first of a four-byte sequence: overlong forms and values above
U+10FFFF are excluded. -/
def followsFour (first second : UInt8) : Bool :=
  if first == 0xF0 then 0x90 ≤ second && second ≤ 0xBF
  else if first == 0xF4 then 0x80 ≤ second && second ≤ 0x8F
  else isContinuation second

/-- The low six bits of a continuation byte. -/
def payload (byte : UInt8) : Nat :=
  byte.toNat % 64

/-- What stands at the front of a byte string. -/
inductive Front where
  /-- A character and the number of bytes it takes beyond the first. -/
  | char (value : Char) (more : Nat)
  /-- An ill-formed sequence: this many bytes beyond the first belong to it. -/
  | broken (more : Nat)
  /-- The string ends inside a sequence. -/
  | cut

/-- Reads the front of `first :: rest`. -/
def front (first : UInt8) (rest : Bytes) : Front :=
  if first < 0x80 then .char (Char.ofNat first.toNat) 0
  else if 0xC2 ≤ first && first ≤ 0xDF then
    match rest with
    | [] => .cut
    | b :: _ =>
      if isContinuation b then .char (Char.ofNat (first.toNat % 32 * 64 + payload b)) 1
      else .broken 0
  else if 0xE0 ≤ first && first ≤ 0xEF then
    match rest with
    | [] => .cut
    | b :: rest =>
      if followsThree first b then
        match rest with
        | [] => .cut
        | c :: _ =>
          if isContinuation c then
            .char (Char.ofNat (first.toNat % 16 * 4096 + payload b * 64 + payload c)) 2
          else .broken 1
      else .broken 0
  else if 0xF0 ≤ first && first ≤ 0xF4 then
    match rest with
    | [] => .cut
    | b :: rest =>
      if followsFour first b then
        match rest with
        | [] => .cut
        | c :: rest =>
          if isContinuation c then
            match rest with
            | [] => .cut
            | d :: _ =>
              if isContinuation d then
                .char (Char.ofNat (first.toNat % 8 * 262144 + payload b * 4096 + payload c * 64 +
                  payload d)) 3
              else .broken 2
          else .broken 1
      else .broken 0
  else .broken 0

/-- The characters of a byte string whose first byte has the given index. -/
def decodeFrom (index : Nat) : Bytes → Except Fault (List Char)
  | [] => .ok []
  | first :: rest =>
    match front first rest with
    | .char value more => (value :: ·) <$> decodeFrom (index + more + 1) (rest.drop more)
    | .broken more => .error ⟨index, some (more + 1)⟩
    | .cut => .error ⟨index, none⟩
  termination_by bytes => bytes.length
  decreasing_by simp only [List.length_drop, List.length_cons]; omega

/-- The text that a byte string encodes. -/
def decode (bytes : Bytes) : Except Fault String :=
  String.ofList <$> decodeFrom 0 bytes

/-- The characters of a byte string, with U+FFFD for each ill-formed sequence. -/
def lossyChars : Bytes → List Char
  | [] => []
  | first :: rest =>
    match front first rest with
    | .char value more => value :: lossyChars (rest.drop more)
    | .broken more => '\uFFFD' :: lossyChars (rest.drop more)
    | .cut => ['\uFFFD']
  termination_by bytes => bytes.length
  decreasing_by all_goals simp only [List.length_drop, List.length_cons]; omega

/-- The text of a byte string, with U+FFFD for each ill-formed sequence. -/
def lossy (bytes : Bytes) : String :=
  String.ofList (lossyChars bytes)

end Utf8

/-- The text of a byte string if it is UTF-8. -/
def Bytes.text? (bytes : Bytes) : Option String :=
  (Utf8.decode bytes).toOption

end SchemaMigration
