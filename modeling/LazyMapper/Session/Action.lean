import LazyMapper.Session.Connection
import LazyMapper.Session.State
import LazyMapper.Statement.Compile

/-!
# Actions and transactions

An action runs in a context: a session, its connection, and what all sessions of a program
share, the supply of handle numbers and the mappings found valid. An action ends with a result
or is interrupted; what it has done to the context by then stays done.

With `autoBegin` a transaction is begun before a query outside one. A failed `COMMIT` or
`ROLLBACK` leaves the transaction open and expires nothing.
-/

set_option autoImplicit false

namespace LazyMapper

/-- What an action runs in. -/
structure Context where
  session : Session
  connection : Connection
  /-- The handle number of the next new entry. -/
  nextHandle : Nat
  configured : Configured

/-- A computation in a context that may be interrupted. -/
abbrev Action (α : Type) := ExceptT Interruption (StateM Context) α

namespace Action

/-- An action that fails. -/
def fail {α : Type} (error : Error) : Action α := throw (.failed error)

/-- The result of a computation without effects. -/
def ofExcept {α : Type} : Except Error α → Action α
  | .ok result => pure result
  | .error error => fail error

/-- A computation that checks mappings. -/
def ofConfiguring {α : Type} (computation : Configuring α) : Action α := do
  let (result, configured) := computation.run.run (← get).configured
  modify fun context => { context with configured }
  ofExcept result

/-- The session. -/
def session : Action Session := return (← get).session

/-- Changes the session. -/
def modifySession (change : Session → Session) : Action Unit :=
  modify fun context => { context with session := change context.session }

/-- Takes the next handle number. -/
def takeHandle : Action Nat :=
  modifyGet fun context =>
    (context.nextHandle, { context with nextHandle := context.nextHandle + 1 })

/-- Sends a statement that returns no rows. -/
def execute (sql : String) : Action Unit := do
  let (reply, connection) := (← get).connection.execute sql
  modify fun context => { context with connection }
  ExceptT.mk (pure reply)

/-! ## Transactions -/

/-- Begins a transaction, unless the session is in one. -/
def beginTransaction : Action Unit := do
  unless (← session).inTransaction do
    execute "BEGIN"
    modifySession fun session => { session with inTransaction := true }

/-- Ends the transaction with a statement, if the session is in one. -/
def endTransaction (sql : String) : Action Unit := do
  if (← session).inTransaction then
    execute sql
    modifySession fun session => { session with inTransaction := false }

/-- Commits the transaction and, if the settings say so, expires all instances. -/
def commit : Action Unit := do
  endTransaction "COMMIT"
  if (← session).config.expireOnCommit then modifySession Session.expireAll

/-- Rolls the transaction back and expires all instances. -/
def rollback : Action Unit := do
  endTransaction "ROLLBACK"
  modifySession Session.expireAll

/-- Sends a query, in a transaction if the settings say so. -/
def query (statement : String × List Value) : Action (List Row) := do
  if (← session).config.autoBegin then beginTransaction
  let (reply, connection) := (← get).connection.query statement.1 statement.2
  modify fun context => { context with connection }
  ExceptT.mk (pure reply)

/-! ## Statements -/

/-- Compiles a statement for the dialect of the session. -/
def compile (schema : Schema) (statement : Statement) : Action CompiledStatement := do
  ofConfiguring (statement.compile schema (← session).config.dialect)

/-- The plan of a model in a compiled statement. -/
def planFor (compiled : CompiledStatement) (model : Model) : Action LoadPlan :=
  match compiled.planFor? model.entity with
  | some plan => pure plan
  | none => fail (.usage (.notSelected model.table))

end Action

end LazyMapper
