import SchemaMigration.Text.Form
import SchemaMigration.Url.Punycode

/-!
Domain names in their ASCII form: letters in lower case, composed, and each label with characters
beyond ASCII written in Punycode behind `xn--`.
-/

namespace SchemaMigration.Url.Domain

/-- ASCII characters that no domain has. -/
def isForbidden (c : Char) : Bool :=
  c.toNat ≤ 0x20 || c.toNat == 0x7F ||
    c ∈ ['#', '/', ':', '<', '>', '?', '@', '[', '\\', ']', '^', '|', '%']

/-- Characters that a domain name does without. -/
def isIgnored (c : Char) : Bool :=
  let n := c.toNat
  n == 0xAD || n == 0x200B || n == 0x2060 || n == 0xFEFF || (0xFE00 ≤ n && n ≤ 0xFE0F)

/-- Characters beyond ASCII that no domain has: controls, separators, format characters, characters
for private use and those that stand for none. -/
def isDisallowed (c : Char) : Bool :=
  let n := c.toNat
  (0x80 ≤ n && n ≤ 0x9F) || (0x2000 ≤ n && n ≤ 0x200A) || n == 0xA0 || n == 0x1680 ||
    n == 0x3000 || n == 0x180E || (0x200C ≤ n && n ≤ 0x200F) || (0x2028 ≤ n && n ≤ 0x202F) ||
    n == 0x205F || (0x2061 ≤ n && n ≤ 0x206F) || (0xE000 ≤ n && n ≤ 0xF8FF) ||
    (0xFFF0 ≤ n && n ≤ 0xFFFF) || (0xE0000 ≤ n)

/-- Letters of the Latin extension whose upper case has the even number. -/
def hasEvenCapital (n : Nat) : Bool :=
  (0x100 ≤ n && n ≤ 0x137) || (0x14A ≤ n && n ≤ 0x177) || (0x1DE ≤ n && n ≤ 0x1EF) ||
    (0x1F8 ≤ n && n ≤ 0x21F) || (0x222 ≤ n && n ≤ 0x233) || (0x370 ≤ n && n ≤ 0x373) ||
    (0x3D8 ≤ n && n ≤ 0x3EF) || (0x460 ≤ n && n ≤ 0x481) || (0x48A ≤ n && n ≤ 0x4BF) ||
    (0x4D0 ≤ n && n ≤ 0x52F) || (0x1E00 ≤ n && n ≤ 0x1E95) || (0x1EA0 ≤ n && n ≤ 0x1EFF)

/-- Letters of the Latin extension whose upper case has the odd number. -/
def hasOddCapital (n : Nat) : Bool :=
  (0x139 ≤ n && n ≤ 0x148) || (0x179 ≤ n && n ≤ 0x17E) || (0x1CD ≤ n && n ≤ 0x1DC) ||
    (0x4C1 ≤ n && n ≤ 0x4CE)

/-- The lower case of a letter of the Latin, Greek, Cyrillic and Armenian alphabets. -/
def lower (c : Char) : Char :=
  let n := c.toNat
  let shifted (by_ : Nat) := Char.ofNat (n + by_)
  if c.isUpper then c.toLower
  else if 0xC0 ≤ n && n ≤ 0xDE && n != 0xD7 then shifted 32
  else if n == 0x178 then 'ÿ'
  else if hasEvenCapital n then Char.ofNat (n / 2 * 2 + 1)
  else if hasOddCapital n then Char.ofNat ((n + 1) / 2 * 2)
  else if n == 0x386 then 'ά'
  else if 0x388 ≤ n && n ≤ 0x38A then shifted 37
  else if n == 0x38C then 'ό'
  else if n == 0x38E || n == 0x38F then shifted 63
  else if 0x391 ≤ n && n ≤ 0x3AB && n != 0x3A2 then shifted 32
  else if 0x410 ≤ n && n ≤ 0x42F then shifted 32
  else if 0x400 ≤ n && n ≤ 0x40F then shifted 80
  else if 0x531 ≤ n && n ≤ 0x556 then shifted 48
  else c

/-- What a character of a domain name counts as: full-width forms count as ASCII, and every full
stop separates labels. -/
def mapped (c : Char) : Char :=
  let n := c.toNat
  if 0xFF01 ≤ n && n ≤ 0xFF5E then (Char.ofNat (n - 0xFEE0)).toLower
  else if n == 0x3002 || n == 0xFF61 then '.'
  else lower c

/-- Letters with each combining mark, in the order of `composedLetters`. -/
def baseLetters : List (Char × String × String) :=
  [('\u0300', "aeioun", "àèìòùǹ"), ('\u0301', "aeiouyncszrl", "áéíóúýńćśźŕĺ"),
    ('\u0302', "aeiouycghjsw", "âêîôûŷĉĝĥĵŝŵ"), ('\u0303', "anoiu", "ãñõĩũ"),
    ('\u0304', "aeiou", "āēīōū"), ('\u0306', "aegiou", "ăĕğĭŏŭ"), ('\u0307', "cegz", "ċėġż"),
    ('\u0308', "aeiouy", "äëïöüÿ"), ('\u030A', "au", "åů"), ('\u030B', "ou", "őű"),
    ('\u030C', "cdenrstzg", "čďěňřšťžǧ"), ('\u0327', "cgklnrst", "çģķļņŗşţ"),
    ('\u0328', "aeiu", "ąęįų")]

/-- The letter that a base letter and a combining mark make. -/
def compose? (base mark : Char) : Option Char := do
  let (_, bases, composed) ← baseLetters.find? fun (other, _, _) => other = mark
  (bases.toList.zip composed.toList).lookup base

/-- Composes letters with the marks that follow them. -/
def compose : List Char → List Char
  | a :: b :: rest =>
    match compose? a b with
    | some c => compose (c :: rest)
    | none => a :: compose (b :: rest)
  | cs => cs
  termination_by cs => cs.length

/-- Whether a label written in Punycode decodes to a label that needs it. -/
def isValidEncoded (digits : List Char) : Bool :=
  match Punycode.decode digits with
  | some label =>
    label.any (128 ≤ ·.toNat) && label.all (fun c => !isDisallowed c && mapped c = c) &&
      Punycode.encode label = digits
  | none => false

/-- The ASCII form of one label. -/
def labelToAscii? (label : List Char) : Option (List Char) :=
  if label.any (128 ≤ ·.toNat) then
    if "xn--".toList.isPrefixOf label then none
    else some ("xn--".toList ++ Punycode.encode label)
  else if "xn--".toList.isPrefixOf label then
    if isValidEncoded (label.drop 4) then some label else none
  else some label

/-- The ASCII form of a domain name. -/
def toAscii? (domain : List Char) : Option (List Char) := do
  let clean := compose ((domain.filter (!isIgnored ·)).map mapped)
  if clean.any fun c => isForbidden c || isDisallowed c then none
  let labels ← (Form.splitOn (· == '.') clean).mapM labelToAscii?
  return ['.'].intercalate labels

end SchemaMigration.Url.Domain
