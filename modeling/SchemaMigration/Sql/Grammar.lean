import SchemaMigration.Sql.Fault
import SchemaMigration.Sql.Statement

/-!
Reading SQL text as a batch of statements. `Batch.read` never fails: where the text is not SQL, the
batch ends with a `broken` item, which holds what had been understood of the statement by then, as
far as a database could refuse that part before the rest of the text is looked at. A database looks
at a part of a statement once it has read the token behind it, if that token can stand there.

Part of SQL is not read and counts as wrong from the token on where it differs from what is read:

* views, triggers, virtual and temporary tables, names of other databases, `CREATE TABLE … AS`, and
  the options `STRICT` and `WITHOUT ROWID`;
* `CHECK`, `COLLATE`, generated columns, the conflict clauses of constraints, and the actions of
  foreign keys and the time at which they are checked;
* indexes on expressions or on part of a table;
* `REPLACE`, `INSERT OR …`, `INSERT … SELECT`, `INSERT … DEFAULT VALUES`, upserts, `UPDATE OR …`,
  `INDEXED BY` and `RETURNING`;
* joins and names of tables for one statement, `DISTINCT`, `GROUP BY`, `ORDER BY`, `OFFSET`,
  compound selections and `WITH`;
* columns named with their table, functions, subqueries, `CASE`, `CAST`, `LIKE`, `IN`, `BETWEEN`,
  `IS` beside something else than `NULL`, the operators on numbers and texts, numerals whose digits
  `_` separates, and the words for the current time;
* `EXPLAIN`, `ANALYZE` and `REINDEX`;
* `SAVEPOINT`, `RELEASE`, `ROLLBACK TO`, `PRAGMA`, `ATTACH`, `DETACH` and `VACUUM` of a named
  database. Some of these do inside a transaction what they do not do outside, so they are told
  apart as `unread`.
-/

namespace SchemaMigration.Sql

/-- One item of a batch. -/
inductive BatchItem where
  | statement (statement : Statement)
  | broken (begun : Option Statement) (fault : Fault)
  /-- A statement that is not understood, of a kind that may heed transactions. -/
  | unread (fault : Fault)
  deriving DecidableEq, Repr

/-- A reader of tokens; a failure answers the tokens from the one it stopped at. -/
abbrev Reader := StateT (List Token) (Except (List Token))

namespace Reader

variable {α : Type}

/-- Stops at the next token. -/
def stop : Reader α := do
  throw (← get)

/-- The next token, which stays. -/
def peek? : Reader (Option Token) :=
  return (← get).head?

def skip : Reader Unit :=
  modify List.tail

/-- Whether the next token is a keyword. -/
def atKeyword (keyword : String) : Reader Bool :=
  return (← peek?).any (·.isKeyword keyword)

/-- Whether the next token is a sign. -/
def atSign (sign : String) : Reader Bool :=
  return (← peek?).any (·.isSign sign)

/-- Takes a keyword if it is next. -/
def acceptKeyword (keyword : String) : Reader Bool := do
  if ← atKeyword keyword then skip; return true else return false

/-- Takes a sign if it is next. -/
def acceptSign (sign : String) : Reader Bool := do
  if ← atSign sign then skip; return true else return false

def keyword (keyword : String) : Reader Unit := do
  if !(← acceptKeyword keyword) then stop

def sign (sign : String) : Reader Unit := do
  if !(← acceptSign sign) then stop

/-- Words that join tables; they can name a table or column but no type. -/
def joinWords : List String :=
  ["CROSS", "FULL", "INNER", "LEFT", "NATURAL", "OUTER", "RIGHT"]

/-- The name that a token stands for, if it can be one. -/
def nameOf? (token : Token) : Option String :=
  match token.kind with
  | .word => if Token.canBeName token.spelling then some token.spelling else none
  | .quotedName name _ => some name
  | .text value => some value
  | _ => none

/-- A name, and how it is spelled with the quotes around it, if any. -/
def spelledName : Reader (String × String) := do
  match ← peek? with
  | none => stop
  | some token =>
    match nameOf? token with
    | some name => skip; return (name, token.spelling)
    | none => stop

/-- A name. -/
def name : Reader String :=
  return (← spelledName).1

/-- The word of a type name that a token stands for, if it can be one. -/
def typeWordOf? (token : Token) : Option String :=
  match token.kind with
  | .word =>
    if Token.canBeName token.spelling && !(joinWords.contains (Token.fold token.spelling)) &&
      Token.fold token.spelling != "INDEXED" then some token.spelling else none
  | .quotedName name _ => some name
  | .text value => some value
  | _ => none

/-- One or more items with commas between them; `bound` is at least the number of items. -/
def commasUpTo (item : Reader α) : Nat → Reader (List α)
  | 0 => return [← item]
  | bound + 1 => do
    let first ← item
    if ← acceptSign "," then return first :: (← commasUpTo item bound) else return [first]

/-- One or more items with commas between them. -/
def commas (item : Reader α) : Reader (List α) := do
  commasUpTo item (← get).length

/-- Items in parentheses with commas between them. -/
def parenthesized (item : Reader α) : Reader (List α) := do
  sign "("
  let items ← commas item
  sign ")"
  return items

/-! ## Expressions -/

/-- The value of an integer numeral in decimal or hexadecimal digits. The latter are the bits of a
cell. -/
def integer? (spelling : String) : Option Expr :=
  match spelling.toList with
  | '0' :: 'x' :: digits | '0' :: 'X' :: digits =>
    let bits := (Digit.number? 16 digits).getD 0
    if bits ≤ Numeral.signedMax then some (.numeral bits)
    else if bits ≤ Numeral.unsignedMax then
      some (.literal (.integer ((bits : Int) - Numeral.unsignedMax - 1)))
    else none
  | digits => some (.numeral (Numeral.accumulate 0 digits))

/-- The literal that a token stands for. -/
def literalOf? (token : Token) : Option Expr :=
  match token.kind with
  | .integer => integer? token.spelling
  | .real =>
    some (.literal (match Value.numeral? token.spelling with
      | some (.integer n) => .real (Decimal.ofInt n)
      | some value => value
      | none => .null))
  | .text value => some (.literal (.text value))
  | .blob bytes => some (.literal (.blob bytes))
  | .word => if token.isKeyword "NULL" then some (.literal .null) else none
  | _ => none

/-- Words that stand for the current time in an expression. -/
def clockWords : List String :=
  ["CURRENT_DATE", "CURRENT_TIME", "CURRENT_TIMESTAMP"]

/-- A literal, name, parenthesised or signed expression. -/
def operandWith (inner : Reader Expr) : Nat → Reader Expr
  | 0 => stop
  | bound + 1 => do
    match ← peek? with
    | none => stop
    | some token =>
      match literalOf? token with
      | some e => skip; return e
      | none =>
        match token.kind with
        | .parameter => skip; return .parameter
        | .quotedName name doubleQuoted => skip; return .name name doubleQuoted
        | .word =>
          if Token.canBeName token.spelling && !clockWords.contains (Token.fold token.spelling)
          then skip; return .name token.spelling false
          else stop
        | .sign =>
          if token.spelling == "(" then
            skip
            let e ← inner
            sign ")"
            return e
          else if token.spelling == "-" then skip; return .negate (← operandWith inner bound)
          else if token.spelling == "+" then skip; return .plus (← operandWith inner bound)
          else stop
        | _ => stop

/-- The order comparison that a token stands for. -/
def orderOf? (token : Token) : Option Comparison :=
  if token.isSign "<" then some .less
  else if token.isSign "<=" then some .lessEqual
  else if token.isSign ">" then some .greater
  else if token.isSign ">=" then some .greaterEqual
  else none

/-- The equality comparison that a token stands for. -/
def equalityOf? (token : Token) : Option Comparison :=
  if token.isSign "=" || token.isSign "==" then some .equal
  else if token.isSign "<>" || token.isSign "!=" then some .unequal
  else none

/-- Operands joined from the left by the comparisons that `of?` knows. -/
def comparisonsWith (of? : Token → Option Comparison) (operand : Reader Expr) :
    Nat → Expr → Reader Expr
  | 0, left => return left
  | bound + 1, left => do
    match (← peek?).bind of? with
    | some comparison =>
      skip
      let right ← operand
      comparisonsWith of? operand bound (.compare comparison left right)
    | none =>
      return left

/-- Tests for null and equality, from the left. -/
def equalitiesWith (operand : Reader Expr) : Nat → Expr → Reader Expr
  | 0, left => return left
  | bound + 1, left => do
    match (← peek?).bind equalityOf? with
    | some comparison =>
      skip
      let right ← operand
      equalitiesWith operand bound (.compare comparison left right)
    | none =>
      if ← acceptKeyword "ISNULL" then equalitiesWith operand bound (.isNull left)
      else if ← acceptKeyword "NOTNULL" then equalitiesWith operand bound (.not (.isNull left))
      else if ← acceptKeyword "IS" then
        let negated ← acceptKeyword "NOT"
        keyword "NULL"
        equalitiesWith operand bound (if negated then .not (.isNull left) else .isNull left)
      else return left

/-- A chain of negations before an operand. -/
def negationsWith (operand : Reader Expr) : Nat → Reader Expr
  | 0 => operand
  | bound + 1 => do
    if ← acceptKeyword "NOT" then return .not (← negationsWith operand bound) else operand

/-- Operands joined from the left by a keyword. -/
def joinedBy (word : String) (join : Expr → Expr → Expr) (operand : Reader Expr) :
    Nat → Expr → Reader Expr
  | 0, left => return left
  | bound + 1, left => do
    if ← acceptKeyword word then
      let right ← operand
      joinedBy word join operand bound (join left right)
    else return left

/-- A conjunction; beside a zero the other side counts for nothing and is not looked at. -/
def conjunction (left right : Expr) : Expr :=
  if left = .numeral 0 || right = .numeral 0 then .numeral 0 else .and left right

/-- An expression nested at most `depth` deep. -/
def exprUpTo : Nat → Reader Expr
  | 0 => stop
  | depth + 1 => do
    let bound := (← get).length
    let operand := operandWith (exprUpTo depth) bound
    let ordered := do comparisonsWith orderOf? operand bound (← operand)
    let equated := do equalitiesWith ordered bound (← ordered)
    let negated := negationsWith equated bound
    let conjoined := do joinedBy "AND" conjunction negated bound (← negated)
    joinedBy "OR" .or conjoined bound (← conjoined)

/-- An expression. -/
def expr : Reader Expr := do
  exprUpTo ((← get).length + 1)

/-! ## Definitions -/

/-- The words of a type name. -/
def typeWords : Nat → Reader (List String)
  | 0 => return []
  | bound + 1 => do
    match (← peek?).bind typeWordOf? with
    | some word => skip; return word :: (← typeWords bound)
    | none => return []

/-- A numeral with an optional sign, as a type's size is given. -/
def sizeNumeral : Reader Unit := do
  if !(← acceptSign "-") then discard (acceptSign "+")
  match ← peek? with
  | some token => if token.kind == .integer || token.kind == .real then skip else stop
  | none => stop

/-- A declared type, which may be absent. -/
def declaredType : Reader String := do
  let words ← typeWords (← get).length
  if words ≠ [] then
    if ← acceptSign "(" then
      sizeNumeral
      if ← acceptSign "," then sizeNumeral
      sign ")"
  return " ".intercalate words

/-- A name in a list of key columns; its sort order means nothing there. -/
def keyColumn : Reader String := do
  let column ← name
  if !(← acceptKeyword "ASC") then discard (acceptKeyword "DESC")
  return column

/-- A list of columns in parentheses, which may be absent. -/
def columnsIfAny : Reader (List String) := do
  if ← atSign "(" then parenthesized name else return []

/-- What a default is that is a bare name: a truth value, or the text of the name. -/
def bareDefault? (token : Token) : Option Expr :=
  match token.kind with
  | .word =>
    let folded := Token.fold token.spelling
    if !Token.canBeName token.spelling || joinWords.contains folded ||
      clockWords.contains folded then
      none
    else
      some (.literal ((Expr.ownMeaning? token.spelling false).getD (.text token.spelling)))
  | .quotedName name _ => some (.literal (.text name))
  | _ => none

/-- A default value: an expression in parentheses, a literal with at most one sign, or a name. -/
def defaultValue : Reader Expr := do
  if ← acceptSign "(" then
    let e ← expr
    sign ")"
    return e
  else
    let negated ← acceptSign "-"
    let signed ← if negated then pure true else acceptSign "+"
    match ← peek? with
    | none => stop
    | some token =>
      match literalOf? token, bareDefault? token with
      | some e, _ => skip; return if negated then .negate e else e
      | none, some e => if signed then stop else skip; return e
      | none, none => stop

/-- A clause of a column definition; `none` where none starts. -/
def columnClause? : Reader (Option ColumnClause) := do
  if ← acceptKeyword "PRIMARY" then
    keyword "KEY"
    let descending ← if ← acceptKeyword "ASC" then pure false else acceptKeyword "DESC"
    return some (.primaryKey descending (← acceptKeyword "AUTOINCREMENT"))
  else if ← acceptKeyword "UNIQUE" then return some .unique
  else if ← acceptKeyword "NOT" then
    keyword "NULL"
    return some .notNull
  else if ← acceptKeyword "NULL" then return some .nullable
  else if ← acceptKeyword "DEFAULT" then return some (.default (← defaultValue))
  else if ← acceptKeyword "REFERENCES" then
    let parent ← name
    return some (.references parent (← columnsIfAny))
  else return none

/-- The clauses of a column definition, with those read before a failure. -/
def columnClauses : Nat → List ColumnClause → List Token →
    List ColumnClause × Except (List Token) (List Token)
  | 0, clauses, tokens => (clauses, .ok tokens)
  | bound + 1, clauses, tokens =>
    match (do if ← acceptKeyword "CONSTRAINT" then discard name
              columnClause? : Reader (Option ColumnClause)).run tokens with
    | .error tokens => (clauses, .error tokens)
    | .ok (some clause, tokens) => columnClauses bound (clauses ++ [clause]) tokens
    | .ok (none, tokens) => (clauses, .ok tokens)

/-- A constraint of a table definition; `none` where none starts. -/
def tableClause? : Reader (Option TableClause) := do
  if ← acceptKeyword "CONSTRAINT" then discard name
  if ← acceptKeyword "PRIMARY" then
    keyword "KEY"
    sign "("
    let columns ← commas keyColumn
    let autoincrement ← acceptKeyword "AUTOINCREMENT"
    sign ")"
    return some (.primaryKey columns autoincrement)
  else if ← acceptKeyword "UNIQUE" then return some (.unique (← parenthesized keyColumn))
  else if ← acceptKeyword "FOREIGN" then
    keyword "KEY"
    let columns ← parenthesized name
    keyword "REFERENCES"
    let parent ← name
    return some (.foreignKey columns parent (← columnsIfAny))
  else return none

/-- Whether a constraint of the table starts at a token. -/
def startsTableClause (token : Token) : Bool :=
  ["CONSTRAINT", "PRIMARY", "UNIQUE", "FOREIGN", "CHECK"].any token.isKeyword

/-- The rest of a table definition after its columns. A clause counts once a token that can stand
behind it is read. -/
def tableClauses : Nat → TableDefinition → List Token →
    TableDefinition × Except (List Token) (List Token)
  | 0, table, tokens => (table, .error tokens)
  | bound + 1, table, tokens =>
    match tableClause?.run tokens with
    | .error tokens => (table, .error tokens)
    | .ok (none, tokens) => (table, .error tokens)
    | .ok (some clause, tokens) =>
      let extended := { table with clauses := table.clauses ++ [clause] }
      match tokens with
      | [] => (table, .error [])
      | next :: rest =>
        if next.isSign ")" then (extended, .ok rest)
        else if next.isSign "," then tableClauses bound extended rest
        else if startsTableClause next then tableClauses bound extended tokens
        else (table, .error tokens)

/-- A column definition, with what was read of it before a failure. -/
def columnDefinition (tokens : List Token) :
    Option ColumnDefinition × Except (List Token) (List Token) :=
  match (do return (← name, ← declaredType) : Reader (String × String)).run tokens with
  | .error tokens => (none, .error tokens)
  | .ok ((name, declaredType), tokens) =>
    let (clauses, rest) := columnClauses tokens.length [] tokens
    (some { name, declaredType, clauses }, rest)

/-- A column definition without its last part, which no token that can stand behind it follows. -/
def withoutLastPart (column : ColumnDefinition) : Option ColumnDefinition :=
  if column.clauses = [] then none
  else some { column with clauses := column.clauses.dropLast }

/-- The columns and constraints of a table definition up to the closing parenthesis. -/
def tableBody : Nat → TableDefinition → List Token →
    TableDefinition × Except (List Token) (List Token)
  | 0, table, tokens => (table, .error tokens)
  | bound + 1, table, tokens =>
    let (column, rest) := columnDefinition tokens
    let extended := { table with columns := table.columns ++ column.toList }
    let begun :=
      { table with columns := table.columns ++ (column.bind withoutLastPart).toList }
    match rest with
    | .error tokens => (extended, .error tokens)
    | .ok [] => (begun, .error [])
    | .ok (token :: rest) =>
      if token.isSign ")" then (extended, .ok rest)
      else if token.isSign "," then
        if rest.head?.any startsTableClause then tableClauses rest.length extended rest
        else tableBody bound extended rest
      else (begun, .error (token :: rest))

/-! ## Statements -/

/-- An optional phrase before a name. -/
def ifExists : Reader Bool := do
  if ← atKeyword "IF" then
    let before ← get
    match (do keyword "IF"; keyword "EXISTS" : Reader Unit).run before with
    | .ok (_, after) => set after; return true
    | .error rest => throw rest
  else return false

/-- An optional phrase before a new name. -/
def ifNotExists : Reader Bool := do
  if ← acceptKeyword "IF" then
    keyword "NOT"
    keyword "EXISTS"
    return true
  else return false

/-- An optional condition on rows. -/
def condition? : Reader (Option Expr) := do
  if ← acceptKeyword "WHERE" then return some (← expr) else return none

/-- An item of a selection and the name it may be given; `none` for a star. -/
def selectedItem : Reader (Option Expr) := do
  if ← acceptSign "*" then return none
  let e ← expr
  if ← acceptKeyword "AS" then discard name
  else if ((← peek?).bind typeWordOf?).isSome then skip
  return some e

/-- What follows the word of a transaction statement. -/
def transactionWord : Reader Unit := do
  if ← acceptKeyword "TRANSACTION" then
    if ((← peek?).bind nameOf?).isSome then skip

/-- A statement other than the definition or change of a table. -/
def simpleStatement : Reader Statement := do
  if ← acceptKeyword "CREATE" then
    let unique ← acceptKeyword "UNIQUE"
    keyword "INDEX"
    let ifNotExists ← ifNotExists
    let index ← name
    keyword "ON"
    let table ← name
    return .createIndex unique ifNotExists index table (← parenthesized keyColumn)
  else if ← acceptKeyword "DROP" then
    if ← acceptKeyword "TABLE" then return .dropTable (← ifExists) (← name)
    keyword "INDEX"
    return .dropIndex (← ifExists) (← name)
  else if ← acceptKeyword "INSERT" then
    keyword "INTO"
    let table ← name
    let columns ← if ← atSign "(" then some <$> parenthesized name else pure none
    keyword "VALUES"
    return .insert table columns (← commas (parenthesized expr))
  else if ← acceptKeyword "UPDATE" then
    let table ← name
    keyword "SET"
    let assignments ← commas do
      let column ← name
      sign "="
      return (column, ← expr)
    return .update table assignments (← condition?)
  else if ← acceptKeyword "DELETE" then
    keyword "FROM"
    let table ← name
    return .delete table (← condition?)
  else if ← acceptKeyword "SELECT" then
    let items ← commas selectedItem
    let table ← if ← acceptKeyword "FROM" then some <$> name else pure none
    let condition ← condition?
    let limit ← if ← acceptKeyword "LIMIT" then some <$> expr else pure none
    return .select items table condition limit
  else if ← acceptKeyword "VALUES" then return .values (← commas (parenthesized expr))
  else if ← acceptKeyword "BEGIN" then
    if !(← acceptKeyword "DEFERRED") then
      if !(← acceptKeyword "IMMEDIATE") then discard (acceptKeyword "EXCLUSIVE")
    transactionWord
    return .begin
  else if ← acceptKeyword "COMMIT" then transactionWord; return .commit
  else if ← acceptKeyword "END" then transactionWord; return .commit
  else if ← acceptKeyword "ROLLBACK" then transactionWord; return .rollback
  else if ← acceptKeyword "VACUUM" then return .vacuum
  else stop

/-- The head of a table definition: its phrase and its name. -/
def tableHead : Reader (Bool × String × String) := do
  keyword "CREATE"
  keyword "TABLE"
  return (← ifNotExists, ← spelledName)

/-- The head of a table's change: its phrase and the table's name. -/
def alterationHead : Reader String := do
  keyword "ALTER"
  keyword "TABLE"
  name

/-- The phrase before a new column. -/
def additionHead : Reader Unit := do
  keyword "ADD"
  discard (acceptKeyword "COLUMN")

/-- A change that drops a column or renames the table. -/
def alteration (table : String) : Reader Statement := do
  if ← acceptKeyword "DROP" then
    discard (acceptKeyword "COLUMN")
    let (column, spelling) ← spelledName
    return .alterTable table (.dropColumn column spelling)
  keyword "RENAME"
  if ← acceptKeyword "TO" then return .alterTable table (.rename (← name))
  discard (acceptKeyword "COLUMN")
  let (column, spelling) ← spelledName
  keyword "TO"
  return .alterTable table (.renameColumn column spelling (← name))

end Reader

namespace BatchItem

/-- The fault of text that stops being SQL at the given tokens of `text`. -/
def faultAt (place : Nat → Place) : List Token → Fault
  | [] => .incomplete
  | token :: _ =>
    if token.kind == .illegal then .unrecognized token.spelling (place token.offset)
    else .unexpected token.spelling (place token.offset)

/-- The item of a statement that was read up to `rest`, where a semicolon or the end must stand;
`begun` is the part of it that counts if something else does. -/
def ended (place : Nat → Place) (read : Statement) (begun : Option Statement) :
    List Token → BatchItem
  | [] => .statement read
  | token :: rest =>
    if token.isSign ";" then .statement read else .broken begun (faultAt place (token :: rest))

/-- The item of a statement that is understood only as a whole. -/
def whole (place : Nat → Place) (reader : Reader Statement) (tokens : List Token) : BatchItem :=
  match reader.run tokens with
  | .ok (read, rest) => ended place read none rest
  | .error rest => .broken none (faultAt place rest)

/-- The item of a table definition behind which `rest` stands. An option of the table is a word;
none is known here. -/
def withOptions (place : Nat → Place) (read : Statement) (rest : List Token) : BatchItem :=
  match rest with
  | token :: next =>
    match Reader.nameOf? token with
    | some _ =>
      if next.head?.all fun token => token.isSign ";" || token.isSign "," then
        .broken (some read) (.unknownTableOption token.spelling)
      else .broken (some read) (faultAt place next)
    | none => ended place read (some read) rest
  | [] => .statement read

/-- Reads a table definition. Its name is looked up once the parenthesis behind it is read. -/
def readTable (place : Nat → Place) (tokens : List Token) : BatchItem :=
  match Reader.tableHead.run tokens with
  | .error rest => .broken none (faultAt place rest)
  | .ok ((ifNotExists, name, spelling), rest) =>
    match rest with
    | [] => .broken none .incomplete
    | next :: body =>
      if next.isSign "(" then
        match Reader.tableBody body.length { name, spelling, columns := [] } body with
        | (table, .ok rest) => withOptions place (.createTable ifNotExists table) rest
        | (table, .error rest) =>
          .broken (some (.createTable ifNotExists table)) (faultAt place rest)
      else .broken none (faultAt place rest)

/-- Reads the change of a table. The table to which a column is added is looked up early; a
selection of nothing stands for that look. -/
def readAlteration (place : Nat → Place) (tokens : List Token) : BatchItem :=
  match Reader.alterationHead.run tokens with
  | .error rest => .broken none (faultAt place rest)
  | .ok (table, rest) =>
    let look := Statement.select [] (some table) none none
    let addition (column : ColumnDefinition) := Statement.alterTable table (.addColumn column)
    if rest.head?.any (·.isKeyword "ADD") then
      match Reader.additionHead.run rest with
      | .error rest => .broken (some look) (faultAt place rest)
      | .ok (_, rest) =>
        match Reader.columnDefinition rest with
        | (some column, .ok rest) =>
          ended place (addition column)
            (some (((Reader.withoutLastPart column).map addition).getD look)) rest
        | (some column, .error rest) => .broken (some (addition column)) (faultAt place rest)
        | (none, .ok rest) | (none, .error rest) => .broken (some look) (faultAt place rest)
    else whole place (Reader.alteration table) rest

/-- Words that begin statements which may do inside a transaction what they do not do outside. -/
def heedfulWords : List String :=
  ["ATTACH", "DETACH", "PRAGMA", "RELEASE", "ROLLBACK", "SAVEPOINT", "VACUUM"]

/-- Reads a statement other than those on tables, and tells whether one that is not understood may
heed transactions. -/
def readSimple (place : Nat → Place) (tokens : List Token) : BatchItem :=
  match whole place Reader.simpleStatement tokens with
  | .broken begun fault =>
    if tokens.head?.any fun first => heedfulWords.any first.isKeyword then .unread fault
    else .broken begun fault
  | item => item

/-- Reads the tokens of one statement, the semicolon that ends it included if there is one. -/
def read (place : Nat → Place) (tokens : List Token) : BatchItem :=
  match tokens with
  | first :: second :: _ =>
    if first.isKeyword "CREATE" && second.isKeyword "TABLE" then readTable place tokens
    else if first.isKeyword "ALTER" then readAlteration place tokens
    else readSimple place tokens
  | _ => readSimple place tokens

end BatchItem

namespace Batch

/-- Groups tokens into statements: each group but the last ends with a semicolon, and semicolons
alone make no statement. Answers the offset at which the text of each group starts as well. -/
def groups : Nat → List Token → List Token → List (Nat × List Token)
  | _, [], [] => []
  | start, group, [] => [(start, group.reverse)]
  | start, group, token :: rest =>
    if token.isSign ";" then
      if group.isEmpty then groups start [] rest
      else (start, (token :: group).reverse) :: groups (token.offset + 1) [] rest
    else groups start (token :: group) rest

/-- The text from a byte offset on. -/
def textFrom (offset : Nat) (text : List Char) : String :=
  String.ofList (go offset text)
where
  go : Nat → List Char → List Char
    | 0, cs => cs
    | _, [] => []
    | n + 1, c :: cs => go (n + 1 - c.utf8Size) cs

/-- Reads a text as a batch. -/
def read (text : String) : List BatchItem :=
  (groups 0 [] (Token.scan text)).map fun (start, tokens) =>
    BatchItem.read (fun offset => ⟨textFrom start text.toList, offset - start⟩) tokens

end Batch

end SchemaMigration.Sql
