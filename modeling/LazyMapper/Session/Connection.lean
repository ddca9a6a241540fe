import LazyMapper.Error
import LazyMapper.Row

/-!
# Connections

A connection answers queries and statements. What it will answer is a script: each query takes
the next of the replies for queries, each statement the next of those for statements. Beyond the
script a query finds no rows and a statement succeeds. All calls are recorded in their order,
whatever is answered.
-/

set_option autoImplicit false

namespace LazyMapper

/-- How a computation ends without a result. -/
inductive Interruption where
  | failed (error : Error)
  | cancelled (reason : String)
  | panicked (reason : String)
deriving DecidableEq, Repr

/-- A result, or why there is none. -/
abbrev Outcome (α : Type) := Except Interruption α

/-- A call of a connection. -/
inductive Call where
  | query (sql : String) (params : List Value)
  | execute (sql : String)

/-- A connection with its script and its record. -/
structure Connection where
  queryReplies : List (Outcome (List Row))
  executeReplies : List (Outcome Unit)
  calls : List Call

namespace Connection

/-- The connection that finds no rows and accepts every statement. -/
def silent : Connection := ⟨[], [], []⟩

/-- Sends a query. -/
def query (connection : Connection) (sql : String) (params : List Value) :
    Outcome (List Row) × Connection :=
  (connection.queryReplies.headD (.ok []),
    { connection with
      queryReplies := connection.queryReplies.tail
      calls := connection.calls ++ [.query sql params] })

/-- Sends a statement that returns no rows. -/
def execute (connection : Connection) (sql : String) : Outcome Unit × Connection :=
  (connection.executeReplies.headD (.ok ()),
    { connection with
      executeReplies := connection.executeReplies.tail
      calls := connection.calls ++ [.execute sql] })

end Connection

end LazyMapper
