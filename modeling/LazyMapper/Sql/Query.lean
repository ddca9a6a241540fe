import LazyMapper.Sql.Expr

/-!
# Queries

A query is what a statement sends: a select list, tables, and optionally a condition, an order
and a limit. `Query.render` gives its text and its parameters.
-/

set_option autoImplicit false

namespace LazyMapper.Sql

/-- An item of a select list. -/
inductive SelectItem where
  /-- A column under its own name. -/
  | plain (column : String)
  /-- A column of one of several tables, under a name that tells the table. -/
  | labelled (table column : String)
deriving DecidableEq, Repr

namespace SelectItem

/-- What stands before the column name in the label of a table's column. -/
def label (table : String) : String := table ++ "__"

/-- The name of the item in result rows. -/
def resultName : SelectItem → String
  | .plain column => column
  | .labelled table column => label table ++ column

/-- The text of an item. -/
def toText (dialect : Dialect) : SelectItem → String
  | .plain column => dialect.quote column
  | .labelled table column =>
    dialect.column (some table) column ++ " AS " ++ dialect.quote (label table ++ column)

end SelectItem

/-- A term of an `ORDER BY` clause. The text before the first dot of the column, if there is
one, is its table. -/
structure OrderTerm where
  column : String
  descending : Bool
deriving DecidableEq, Repr

/-- A query for rows. -/
structure Query where
  items : List SelectItem
  tables : List String
  condition? : Option Expr
  order : List OrderTerm
  limit? : Option Nat

namespace Query

/-- A query without order and limit. -/
def select (items : List SelectItem) (tables : List String) (condition? : Option Expr) : Query :=
  ⟨items, tables, condition?, [], none⟩

/-- The text of the select list. -/
def selectListText (dialect : Dialect) (query : Query) : String :=
  ", ".intercalate (query.items.map (SelectItem.toText dialect))

/-- The text of a term of the order. -/
def orderText (dialect : Dialect) (term : OrderTerm) : Fragment :=
  (Expr.render dialect (.ofColumnName term.column) []).1 ++
    if term.descending then [.text " DESC"] else []

/-- The fragment of the condition with its keyword, and its parameters. -/
def renderCondition (dialect : Dialect) : Option Expr → Fragment × List Value
  | none => ([], [])
  | some condition =>
    let (fragment, params) := condition.render dialect []
    (.text " WHERE " :: fragment, params)

/-- The fragment of the order with its keyword. -/
def renderOrder (dialect : Dialect) : List OrderTerm → Fragment
  | [] => []
  | terms => .text " ORDER BY " :: Fragment.separated ", " (terms.map (orderText dialect))

/-- The fragment of the limit with its keyword. -/
def renderLimit : Option Nat → Fragment
  | none => []
  | some limit => [.text s!" LIMIT {limit}"]

/-- The fragment of a query and its parameters. -/
def render (dialect : Dialect) (query : Query) : Fragment × List Value :=
  let opening := .text ("SELECT " ++ query.selectListText dialect ++ " FROM " ++
    ", ".intercalate query.tables)
  let (condition, params) := renderCondition dialect query.condition?
  (opening :: condition ++ renderOrder dialect query.order ++ renderLimit query.limit?, params)

/-- The SQL text of a query and its parameters. -/
def build (dialect : Dialect) (query : Query) : String × List Value :=
  let (fragment, params) := query.render dialect
  (fragment.toText dialect, params)

end Query

end LazyMapper.Sql
