import SchemaMigration.Text.Digit

/-!
The tokens of SQL text. `Token.scan` splits a text into tokens without blanks and comments; a
character sequence that is no token becomes one of kind `illegal`, so scanning never fails.
-/

namespace SchemaMigration.Sql

/-- What a token is. -/
inductive TokenKind where
  /-- A bare word: a keyword or a name. -/
  | word
  /-- A name in double quotes, backquotes or square brackets. -/
  | quotedName (name : String) (doubleQuoted : Bool)
  /-- A text literal. -/
  | text (value : String)
  /-- A byte string literal. -/
  | blob (bytes : List UInt8)
  | integer
  | real
  /-- An operator or other sign. -/
  | sign
  /-- A parameter, to which nothing is ever bound here. -/
  | parameter
  | illegal
  deriving DecidableEq, Repr

/-- A token, its spelling, and where it starts, in bytes from the start of the text. -/
structure Token where
  kind : TokenKind
  spelling : String
  offset : Nat
  deriving DecidableEq, Repr

namespace Token

def isBlank (c : Char) : Bool :=
  c == ' ' || c == '\t' || c == '\n' || c == '\x0c' || c == '\r' || c == '\uFEFF'

/-- Whether a bare word can start with the character. -/
def startsWord (c : Char) : Bool :=
  c.isAlpha || c == '_' || 0x80 ≤ c.toNat

/-- Whether a bare word can go on with the character. -/
def continuesWord (c : Char) : Bool :=
  startsWord c || c.isDigit || c == '$'

def isHexDigit (c : Char) : Bool :=
  (Digit.value? 16 c).isSome

def hexValue (c : Char) : Nat :=
  (Digit.value? 16 c).getD 0

/-- The bytes that pairs of hexadecimal digits write. -/
def hexBytes : List Char → List UInt8
  | high :: low :: rest => UInt8.ofNat (hexValue high * 16 + hexValue low) :: hexBytes rest
  | _ => []

/-- Reads up to the closing quote; a doubled quote is one quote of the content. Answers the content
and how many characters the content and the closing quote take. -/
def quotedContent (quote : Char) : List Char → Option (List Char × Nat)
  | [] => none
  | c :: rest =>
    if c == quote then
      match rest with
      | d :: rest' =>
        if d == quote then (quotedContent quote rest').map fun (s, n) => (quote :: s, n + 2)
        else some ([], 1)
      | [] => some ([], 1)
    else (quotedContent quote rest).map fun (s, n) => (c :: s, n + 1)

/-- How many characters a block comment takes after its opening; one that is not closed takes all
the rest. -/
def blockComment : List Char → Nat
  | [] => 0
  | '*' :: '/' :: _ => 2
  | _ :: rest => blockComment rest + 1

/-- How many characters of a list satisfy a condition before the first that does not. -/
def spanLength (p : Char → Bool) (cs : List Char) : Nat :=
  (cs.takeWhile p).length

/-- The kind and length of the numeral at the front of a text. -/
def numeral (cs : List Char) : TokenKind × Nat :=
  let (kind, length) := match cs with
    | '0' :: x :: d :: rest =>
      if (x == 'x' || x == 'X') && isHexDigit d then
        (TokenKind.integer, 3 + spanLength isHexDigit rest)
      else decimal cs
    | cs => decimal cs
  let trailing := spanLength continuesWord (cs.drop length)
  if trailing = 0 then (kind, length) else (.illegal, length + trailing)
where
  /-- Digits, an optional fraction and an optional exponent. -/
  decimal (cs : List Char) : TokenKind × Nat :=
    let whole := spanLength Char.isDigit cs
    let afterWhole := cs.drop whole
    let (kind, length) := match afterWhole with
      | '.' :: rest => (TokenKind.real, whole + 1 + spanLength Char.isDigit rest)
      | _ => (TokenKind.integer, whole)
    match cs.drop length with
    | e :: s :: rest =>
      if e == 'e' || e == 'E' then
        if s.isDigit then (.real, length + 2 + spanLength Char.isDigit rest)
        else if s == '+' || s == '-' then
          match rest with
          | d :: rest => if d.isDigit then (.real, length + 3 + spanLength Char.isDigit rest)
            else (kind, length)
          | [] => (kind, length)
        else (kind, length)
      else (kind, length)
    | _ => (kind, length)

/-- What stands at the front of a non-empty text and how many characters it takes; `none` in place
of a kind is a blank or a comment. -/
def front (cs : List Char) : Option TokenKind × Nat :=
  match cs with
  | [] => (none, 0)
  | c :: rest =>
    if isBlank c then (none, 1 + spanLength isBlank rest)
    else if c == '-' then
      match rest with
      | '-' :: rest => (none, 2 + spanLength (· != '\n') rest)
      | '>' :: '>' :: _ => (some .sign, 3)
      | '>' :: _ => (some .sign, 2)
      | _ => (some .sign, 1)
    else if c == '/' then
      match rest with
      | '*' :: d :: rest => (none, 2 + blockComment (d :: rest))
      | _ => (some .sign, 1)
    else if c == '\'' then
      match quotedContent '\'' rest with
      | some (content, n) => (some (.text (String.ofList content)), n + 1)
      | none => (some .illegal, cs.length)
    else if c == '"' || c == '\x60' then
      match quotedContent c rest with
      | some (content, n) => (some (.quotedName (String.ofList content) (c == '"')), n + 1)
      | none => (some .illegal, cs.length)
    else if c == '[' then
      let content := rest.takeWhile (· != ']')
      if content.length < rest.length then
        (some (.quotedName (String.ofList content) false), content.length + 2)
      else (some .illegal, cs.length)
    else if c.isDigit then
      let (kind, n) := numeral cs
      (some kind, n)
    else if c == '.' then
      if rest.head?.any Char.isDigit then
        let (kind, n) := numeral cs
        (some kind, n)
      else (some .sign, 1)
    else if (c == 'x' || c == 'X') && rest.head? == some '\'' then
      let body := rest.drop 1
      let digits := body.takeWhile isHexDigit
      let after := body.drop digits.length
      if after.head? == some '\'' && digits.length % 2 = 0 then
        (some (.blob (hexBytes digits)), digits.length + 3)
      else
        (some .illegal, 2 + spanLength (· != '\'') body +
          (if (body.dropWhile (· != '\'')).isEmpty then 0 else 1))
    else if startsWord c then (some .word, 1 + spanLength continuesWord rest)
    else if c == '?' then (some .parameter, 1 + spanLength Char.isDigit rest)
    else if c == '$' || c == '@' || c == ':' || c == '#' then
      let n := spanLength continuesWord rest
      (some (if n = 0 then .illegal else .parameter), n + 1)
    else if c == '|' then (some .sign, if rest.head? == some '|' then 2 else 1)
    else if c == '=' then (some .sign, if rest.head? == some '=' then 2 else 1)
    else if c == '<' then
      (some .sign, if rest.head?.any fun d => d == '=' || d == '>' || d == '<' then 2 else 1)
    else if c == '>' then
      (some .sign, if rest.head?.any fun d => d == '=' || d == '>' then 2 else 1)
    else if c == '!' then
      if rest.head? == some '=' then (some .sign, 2) else (some .illegal, 1)
    else if c ∈ [';', '(', ')', '+', '*', '%', ',', '&', '~'] then (some .sign, 1)
    else (some .illegal, 1)

/-- The tokens of a text whose first character is `offset` bytes from the start. -/
def scanFrom (offset : Nat) : List Char → List Token
  | [] => []
  | c :: rest =>
    let (kind, length) := front (c :: rest)
    let taken := c :: rest.take (length - 1)
    let spelling := String.ofList taken
    let tokens := scanFrom (offset + spelling.utf8ByteSize) (rest.drop (length - 1))
    match kind with
    | some kind => ⟨kind, spelling, offset⟩ :: tokens
    | none => tokens
  termination_by cs => cs.length
  decreasing_by simp only [List.length_drop, List.length_cons]; omega

/-- The tokens of a text, which ends at its first NUL character. -/
def scan (text : String) : List Token :=
  scanFrom 0 (text.toList.takeWhile (· != '\x00'))

/-! ## Words -/

/-- Words with a meaning in the grammar that can never be a bare name. -/
def reserved : List String :=
  ["ADD", "ALL", "ALTER", "AND", "AS", "AUTOINCREMENT", "BETWEEN", "CASE", "CHECK", "COLLATE",
    "COMMIT", "CONSTRAINT", "CREATE", "DEFAULT", "DEFERRABLE", "DELETE", "DISTINCT", "DROP",
    "ELSE", "ESCAPE", "EXISTS", "FOREIGN", "FROM", "GROUP", "HAVING", "IN", "INDEX", "INSERT",
    "INTO", "IS", "ISNULL", "JOIN", "LIMIT", "NOT", "NOTHING", "NOTNULL", "NULL", "ON", "OR",
    "ORDER", "PRIMARY", "REFERENCES", "RETURNING", "SELECT", "SET", "TABLE", "THEN", "TO",
    "TRANSACTION", "UNION", "UNIQUE", "UPDATE", "USING", "VALUES", "WHEN", "WHERE", "EXCEPT",
    "INTERSECT"]

/-- Upper case of the ASCII letters, by which keywords are told. -/
def fold (word : String) : String :=
  String.ofList (word.toList.map Char.toUpper)

/-- Whether a bare word can be a name. -/
def canBeName (word : String) : Bool :=
  !(reserved.contains (fold word))

/-- Whether a token is the given keyword. -/
def isKeyword (token : Token) (keyword : String) : Bool :=
  token.kind == .word && fold token.spelling == keyword

/-- Whether a token is the given sign. -/
def isSign (token : Token) (sign : String) : Bool :=
  token.kind == .sign && token.spelling == sign

end Token

end SchemaMigration.Sql
