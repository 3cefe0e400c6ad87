/-!
Punycode: a list of characters written with ASCII letters, digits and hyphens. The characters beyond
ASCII are written in ascending order as differences, each a variable-length number whose digits
weigh more or less as the differences seen so far were large or small.
-/

namespace SchemaMigration.Url.Punycode

/-- The digit of a value below 36: letters, then decimal digits. -/
def digit (value : Nat) : Char :=
  if value < 26 then Char.ofNat ('a'.toNat + value) else Char.ofNat ('0'.toNat + (value - 26))

/-- The value of a digit. -/
def digitValue? (c : Char) : Option Nat :=
  if c.isLower then some (c.toNat - 'a'.toNat)
  else if c.isUpper then some (c.toNat - 'A'.toNat)
  else if c.isDigit then some (c.toNat - '0'.toNat + 26)
  else none

/-- From which value on a digit at position `k` says that another follows. -/
def threshold (k bias : Nat) : Nat :=
  if k ≤ bias then 1 else if bias + 26 ≤ k then 26 else k - bias

/-- Scales a difference down until it is small, counting the steps. -/
def scaleDown (delta steps : Nat) : Nat :=
  if 455 < delta then scaleDown (delta / 35) (steps + 36)
  else steps + 36 * delta / (delta + 38)
  termination_by delta
  decreasing_by omega

/-- The bias after a difference. -/
def adapt (delta count : Nat) (first : Bool) : Nat :=
  let delta := if first then delta / 700 else delta / 2
  scaleDown (delta + delta / count) 0

/-- The digits of a difference from position `k` on. -/
def digitsFrom (bias q k : Nat) : List Char :=
  let t := threshold k bias
  if h : q < t then [digit q]
  else digit (t + (q - t) % (36 - t)) :: digitsFrom bias ((q - t) / (36 - t)) (k + 36)
  termination_by q
  decreasing_by
    have positive : 1 ≤ threshold k bias := by unfold threshold; split <;> (try split) <;> omega
    have bounded : (q - threshold k bias) / (36 - threshold k bias) ≤ q - threshold k bias :=
      Nat.div_le_self _ _
    omega

/-- How far an encoding has come: the character reached, the difference collected, the bias, and how
many characters are written. -/
structure Progress where
  reached : Nat
  delta : Nat
  bias : Nat
  written : Nat
  output : List Char

/-- Writes every occurrence of the next character, collecting differences on the way. -/
def writeAll (basic : Nat) (target : Nat) (progress : Progress) : List Char → Progress
  | [] => { progress with delta := progress.delta + 1, reached := target + 1 }
  | c :: rest =>
    if c.toNat < target then
      writeAll basic target { progress with delta := progress.delta + 1 } rest
    else if c.toNat = target then
      let output := progress.output ++ digitsFrom progress.bias progress.delta 36
      let bias := adapt progress.delta (progress.written + 1) (progress.written = basic)
      writeAll basic target
        { progress with delta := 0, bias, written := progress.written + 1, output } rest
    else writeAll basic target progress rest

/-- Encodes a list of characters. -/
def encode (input : List Char) : List Char :=
  let basic := input.filter (·.toNat < 128)
  let start : Progress :=
    { reached := 128, delta := 0, bias := 72, written := basic.length
      output := if basic.isEmpty then [] else basic ++ ['-'] }
  let targets := ((input.map Char.toNat).filter (128 ≤ ·)).mergeSort.eraseDups
  (targets.foldl (fun progress target =>
    let delta := progress.delta + (target - progress.reached) * (progress.written + 1)
    writeAll basic.length target { progress with delta } input) start).output

/-- Reads the digits of one difference: the difference and the rest. -/
def readDelta (bias : Nat) : Nat → Nat → Nat → List Char → Option (Nat × List Char)
  | _, _, _, [] => none
  | delta, weight, k, c :: rest => do
    let value ← digitValue? c
    let delta := delta + value * weight
    let t := threshold k bias
    if value < t then some (delta, rest) else readDelta bias delta (weight * (36 - t)) (k + 36) rest

/-- Inserts the characters that the digits write, each at its place among those written so far. -/
def insertAll : Nat → Nat → Nat → Nat → List Char → List Char → Option (List Char)
  | _, _, _, _, output, [] => some output
  | 0, _, _, _, _, _ => none
  | bound + 1, reached, position, bias, output, digits => do
    let (delta, rest) ← readDelta bias 0 1 36 digits
    let count := output.length + 1
    let place := position + delta
    let reached := reached + place / count
    if 0x10FFFF < reached ∨ (0xD800 ≤ reached ∧ reached ≤ 0xDFFF) then none
    else
      let index := place % count
      let output := output.take index ++ Char.ofNat reached :: output.drop index
      insertAll bound reached (index + 1) (adapt delta count (position = 0)) output rest

/-- Decodes what `encode` writes. -/
def decode (input : List Char) : Option (List Char) :=
  let digits := (input.reverse.takeWhile (· ≠ '-')).reverse
  let basic := (input.take (input.length - digits.length)).dropLast
  insertAll digits.length 128 0 72 basic digits

end SchemaMigration.Url.Punycode
