import SchemaMigration.Url.Host

/-!
Reading texts as URLs. `Url.read` tells file URLs, with their host and path, from URLs of any other
scheme, of which only the scheme and their being well-formed matter.

The path of a file URL is built from left to right as one text that starts with a slash. A `..`
takes off the last segment, except that a segment that is a drive, such as `C:`, is never taken off.
-/

namespace SchemaMigration

/-- What a text says as a URL. -/
inductive Url where
  /-- A file URL: the text of its host, if it has one, and its path, percent-encoded. -/
  | file (host : Option String) (path : List Char)
  /-- A URL of another scheme. -/
  | other (scheme : String)
  deriving DecidableEq, Repr

namespace Url

/-! ## Paths of file URLs -/

/-- Two characters that name a drive. -/
def isDrive (segment : List Char) : Bool :=
  match segment with
  | [letter, mark] => letter.isAlpha && (mark == ':' || mark == '|')
  | _ => false

/-- A drive in its normal form. -/
def isNormalDrive (segment : List Char) : Bool :=
  match segment with
  | [letter, ':'] => letter.isAlpha
  | _ => false

def isSlash (c : Char) : Bool :=
  c == '/' || c == '\\'

/-- The text after the last slash. -/
def lastSegment (path : List Char) : List Char :=
  (path.reverse.takeWhile (· ≠ '/')).reverse

/-- The text up to the last slash. -/
def upToLastSlash (path : List Char) : List Char :=
  (path.reverse.dropWhile (· ≠ '/')).reverse

/-- Takes the last segment off a path that ends with a slash. -/
def shorten (path : List Char) : List Char :=
  let withoutSlash := path.dropLast
  let segment := lastSegment withoutSlash
  let shorter :=
    if path.getLast? = some '/' ∧ withoutSlash.contains '/' ∧ !isDrive segment then withoutSlash
    else path
  let segment := lastSegment shorter
  if isNormalDrive segment then shorter else upToLastSlash shorter

/-- Segments that stand for the parent, with their dots as they are or encoded. -/
def isDoubleDot (segment : List Char) : Bool :=
  ["..", "%2e%2e", "%2e%2E", "%2E%2e", "%2E%2E", "%2e.", "%2E.", ".%2e", ".%2E"].contains
    (String.ofList segment)

/-- Segments that stand for nothing. -/
def isSingleDot (segment : List Char) : Bool :=
  [".", "%2e", "%2E"].contains (String.ofList segment)

/-- A path, one segment longer; `closed` tells whether a slash follows the segment. -/
def addSegment (path segment : List Char) (closed : Bool) : List Char :=
  let slash := if closed then ['/'] else []
  if isDoubleDot segment then
    let path := shorten path
    if closed ∧ path.getLast? ≠ some '/' then path ++ ['/'] else path
  else if isSingleDot segment then
    if path.getLast? = some '/' then path else path ++ ['/']
  else if path = ['/'] ∧ isDrive segment then
    path ++ segment.take 1 ++ [':'] ++ slash
  else path ++ segment ++ slash

/-- The characters of a segment as a path holds them. -/
def encodeSegment (segment : List Char) : List Char :=
  Percent.encode Percent.path (Bytes.ofString (String.ofList segment))

/-- Adds the segments of a text to a path. -/
def addSegments (path : List Char) : List (List Char) → List Char
  | [] => path
  | [last] => addSegment path (encodeSegment last) false
  | segment :: rest => addSegments (addSegment path (encodeSegment segment) true) rest

/-- The path that a text spells after `start`, up to a query or fragment. -/
def readPath (start text : List Char) : List Char :=
  let text := text.takeWhile fun c => c ≠ '?' ∧ c ≠ '#'
  let path := addSegments start (Form.splitOn isSlash text)
  '/' :: path.dropWhile (· = '/')

/-- Whether the path that a text spells after `start` names a drive in its first segment. -/
def leadsWithDrive (start text : List Char) : Bool :=
  let text := text.takeWhile fun c => c ≠ '?' ∧ c ≠ '#'
  go start (Form.splitOn isSlash text)
where
  go (path : List Char) : List (List Char) → Bool
    | [] => false
    | segment :: rest =>
      (path = ['/'] && isDrive segment) ||
        go (addSegment path (encodeSegment segment) !rest.isEmpty) rest

/-! ## Hosts and schemes -/

/-- Reads a file URL after `file:` and two slashes. -/
def readFileAuthority (text : List Char) : Except Fault Url := do
  let isEnd (c : Char) := isSlash c || c == '?' || c == '#'
  let hostText := text.takeWhile (!isEnd ·)
  let rest := text.dropWhile (!isEnd ·)
  if isDrive hostText then return .file none (readPath ['/'] text)
  if hostText = [] then return .file none (readPath [] rest)
  let host ← Host.read hostText
  if host = .domain "localhost" then return .file none (readPath [] rest)
  let rest := if rest.head?.any isSlash then rest.drop 1 else rest
  return .file (if leadsWithDrive ['/'] rest then none else some host.text) (readPath ['/'] rest)

/-- Reads a file URL after `file:`. -/
def readFile (text : List Char) : Except Fault Url :=
  match text with
  | a :: b :: rest =>
    if isSlash a && isSlash b then readFileAuthority rest
    else if isSlash a then .ok (.file none (readPath [] text))
    else .ok (.file none (readPath ['/'] text))
  | [a] =>
    if isSlash a then .ok (.file none (readPath [] text))
    else .ok (.file none (readPath ['/'] text))
  | [] => .ok (.file none (readPath ['/'] text))

/-- The text behind the user part of an authority, which ends at the last `@`. -/
def afterUser (isSpecial : Bool) (text : List Char) : Except Fault (Bool × List Char) :=
  let isEnd (c : Char) := c == '/' || c == '?' || c == '#' || (isSpecial && c == '\\')
  let authority := text.takeWhile (!isEnd ·)
  let rest := text.dropWhile (!isEnd ·)
  if authority.contains '@' then
    let hostPart := (authority.reverse.takeWhile (· ≠ '@')).reverse
    let userLength := authority.length - hostPart.length - 1
    if userLength = 0 then
      if hostPart = [] ∧ rest ≠ [] then .error .emptyHost
      else .ok (false, hostPart ++ rest)
    else .ok (true, hostPart ++ rest)
  else .ok (false, text)

/-- The host part of an authority: up to a colon outside brackets or the end. -/
def hostLength (isSpecial : Bool) : Bool → List Char → Nat
  | _, [] => 0
  | bracketed, c :: rest =>
    if (c == ':' && !bracketed) || c == '/' || c == '?' || c == '#' || (isSpecial && c == '\\') then
      0
    else
      let inside := if c == '[' then true else if c == ']' then false else bracketed
      hostLength isSpecial inside rest + 1

/-- Checks the number of a port and what follows it. -/
def checkPort (number : Nat) : List Char → Except Fault Unit
  | [] => .ok ()
  | c :: rest =>
    if c.isDigit then
      let number := number * 10 + (c.toNat - '0'.toNat)
      if 65535 < number then .error .invalidPort else checkPort number rest
    else if c ∈ ['/', '\\', '?', '#'] then .ok ()
    else .error .invalidPort

/-- Checks the authority of a URL that is not a file URL. -/
def checkAuthority (isSpecial : Bool) (text : List Char) : Except Fault Unit := do
  let (hasUser, text) ← afterUser isSpecial text
  let length := hostLength isSpecial false text
  let hostText := text.take length
  let rest := text.drop length
  if isSpecial then
    if hostText = [] then throw .emptyHost
    discard (Host.read hostText)
  else
    Host.checkOpaque hostText
    if hostText = [] ∧ rest.head? = some ':' then throw .emptyHost
  if rest.head? = some ':' then checkPort 0 (rest.drop 1)
  if !isSpecial ∧ hostText = [] ∧ hasUser then throw .emptyHost

/-- Schemes whose URLs have domains as hosts. -/
def specialSchemes : List String :=
  ["http", "https", "ws", "wss", "ftp"]

/-- Splits a text into a scheme in lower case and what follows its colon. -/
def splitScheme? (text : List Char) : Option (String × List Char) :=
  let isSchemeChar (c : Char) := c.isAlphanum || c == '+' || c == '-' || c == '.'
  let scheme := text.takeWhile isSchemeChar
  match text.dropWhile isSchemeChar with
  | ':' :: rest =>
    if scheme.head?.any Char.isAlpha then some (String.ofList (scheme.map Char.toLower), rest)
    else none
  | _ => none

/-- The text without controls and blanks around it and without tabs and line ends in it. -/
def stripped (text : String) : List Char :=
  let isOuter (c : Char) := c.toNat ≤ 0x20
  let trimmed := ((text.toList.dropWhile isOuter).reverse.dropWhile isOuter).reverse
  trimmed.filter fun c => c ≠ '\t' ∧ c ≠ '\n' ∧ c ≠ '\r'

/-- Reads a text as a URL. -/
def read (text : String) : Except Fault Url :=
  match splitScheme? (stripped text) with
  | none => .error .relativeWithoutBase
  | some ("file", rest) => readFile rest
  | some (scheme, rest) =>
    if specialSchemes.contains scheme then do
      checkAuthority true (rest.dropWhile isSlash)
      return .other scheme
    else
      match rest with
      | '/' :: '/' :: rest => do
        checkAuthority false rest
        return .other scheme
      | _ => .ok (.other scheme)

end Url

end SchemaMigration
