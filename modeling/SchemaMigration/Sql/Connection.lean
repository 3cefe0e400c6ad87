import SchemaMigration.Sql.Execution
import SchemaMigration.Sql.Grammar

/-!
A connection to a database and what is done over it. A connection holds the committed content and,
while a transaction is open, the content that the transaction sees; a crash keeps the former alone.

A `Session` is a program over a connection. Besides its result it leaves a trail: the connection
after each statement that it issued. What a crash between two statements would leave is thus the
committed content somewhere on the trail.
-/

namespace SchemaMigration.Sql

/-- A connection to a database. -/
structure Connection where
  committed : Database := {}
  /-- The content inside the open transaction, if there is one. -/
  working : Option Database := none
  deriving DecidableEq, Repr

namespace Connection

/-- The content as the connection sees it. -/
def content (connection : Connection) : Database :=
  connection.working.getD connection.committed

/-- Whether a transaction is open. -/
def inTransaction (connection : Connection) : Bool :=
  connection.working.isSome

/-- Changes the content, inside the open transaction if there is one. -/
def withContent (connection : Connection) (db : Database) : Connection :=
  match connection.working with
  | some _ => { connection with working := some db }
  | none => { connection with committed := db }

/-- Runs one statement. A statement that fails changes nothing. -/
def execute (connection : Connection) (statement : Statement) : Except Fault Connection :=
  match statement with
  | .begin =>
    if connection.inTransaction then .error .nestedTransaction
    else .ok { connection with working := some connection.committed }
  | .commit =>
    match connection.working with
    | some db => .ok { committed := db }
    | none => .error .commitOutside
  | .rollback =>
    if connection.inTransaction then .ok { committed := connection.committed }
    else .error .rollbackOutside
  | .vacuum =>
    if connection.inTransaction then .error .vacuumInside
    else .ok { committed := connection.committed.vacuumed }
  | statement => connection.withContent <$> connection.content.execute statement

end Connection

/-- What a program over a connection leaves. -/
structure Outcome (ε α : Type) where
  result : Except ε α
  connection : Connection
  /-- The connection after each statement issued. -/
  trail : List Connection := []

/-- A program over a connection. -/
def Session (ε α : Type) : Type :=
  Connection → Outcome ε α

namespace Session

variable {ε ε' α β : Type}

/-- Issues nothing and answers a result. -/
def answer (result : Except ε α) : Session ε α :=
  fun connection => { result, connection }

/-- Goes on with the answer of a program unless it failed. -/
def andThen (first : Session ε α) (next : α → Session ε β) : Session ε β :=
  fun connection =>
    let left := first connection
    match left.result with
    | .ok value =>
      let right := next value left.connection
      { right with trail := left.trail ++ right.trail }
    | .error e => { left with result := .error e }

instance : Monad (Session ε) where
  pure value := answer (.ok value)
  bind := andThen

instance : MonadExcept ε (Session ε) where
  throw e := answer (.error e)
  tryCatch program handle := fun connection =>
    let left := program connection
    match left.result with
    | .ok _ => left
    | .error e =>
      let right := handle e left.connection
      { right with trail := left.trail ++ right.trail }

/-- Tells the failure of a program in other terms. -/
def mapError (f : ε → ε') (program : Session ε α) : Session ε' α :=
  fun connection =>
    let outcome := program connection
    { outcome with result := outcome.result.mapError f }

/-- The connection as it is. -/
def current : Session ε Connection :=
  fun connection => { result := .ok connection, connection }

/-- Issues one statement. -/
def issue (statement : Statement) : Session Fault Unit :=
  fun connection =>
    match connection.execute statement with
    | .ok connection => { result := .ok (), connection, trail := [connection] }
    | .error fault => { result := .error fault, connection, trail := [connection] }

/-- Answers what a reading of the content answers. -/
def query (read : Database → Except ε α) : Session ε α :=
  fun connection => { result := read connection.content, connection }

/-- The fault of a statement whose text goes on wrongly: what the part understood is refused for, if
it would be refused before it runs, else the fault of the text. -/
def brokenFault (connection : Connection) (begun : Option Statement) (fault : Fault) : Fault :=
  match begun.map connection.content.execute with
  | some (.error earlier) => if earlier.showsWhenRun then fault else earlier
  | _ => fault

/-- Runs one item of a batch. -/
def item : BatchItem → Session Fault Unit
  | .statement statement => issue statement
  | .broken begun fault => do throw (brokenFault (← current) begun fault)
  | .unread fault => throw fault

/-- Runs the items of a batch up to the first that fails. -/
def batch (items : List BatchItem) : Session Fault Unit :=
  items.forM item

/-- Closes the open transaction, if there is one, and drops its changes. -/
def abandon : Session ε Unit :=
  fun connection =>
    if connection.inTransaction then
      let closed : Connection := { committed := connection.committed }
      { result := .ok (), connection := closed, trail := [closed] }
    else { result := .ok (), connection }

/-- Runs a program in a transaction of its own, which is committed at the end and abandoned when the
program or the commit fails. -/
def transaction (onBegin onCommit : Fault → ε) (program : Session ε Unit) : Session ε Unit := do
  mapError onBegin (issue .begin)
  try
    program
    mapError onCommit (issue .commit)
  catch e =>
    abandon
    throw e

end Session

end SchemaMigration.Sql
