import LazyMapper.Plan.Merge
import LazyMapper.Sql.Query

/-!
# Queries by key

The queries that load one identity by its primary key, and the instances related to others by
the values of a key column. The name of a key column is read like any column name in a
condition, so a dot in it separates a table.
-/

set_option autoImplicit false

namespace LazyMapper

namespace Entity

/-- The column of a primary key attribute; an attribute that is not mapped stands for itself. -/
def keyColumn (entity : Entity) (name : String) : String :=
  ((entity.field? name).map Field.column).getD name

/-- The condition that the primary key has the given values, if there is any. -/
def keyCondition? (entity : Entity) (key : List Value) : Option Sql.Expr :=
  let equations := List.zipWith
    (fun name value => (Sql.Expr.ofColumnName (entity.keyColumn name)).equals value)
    entity.primaryKey key
  match equations with
  | [] => none
  | first :: rest => some (rest.foldl Sql.Expr.and first)

/-- The query for columns of the row with a primary key. -/
def queryByKey (entity : Entity) (columns : List String) (key : List Value) : Sql.Query :=
  .select (columns.map .plain) [entity.table] (entity.keyCondition? key)

end Entity

namespace LoadPlan

/-- The columns loaded with the row, and a key column behind them if it is the column of an
attribute and not among them. -/
def columnsWith (plan : LoadPlan) (keyColumn : String) : List String :=
  let columns := plan.eagerColumns
  if columns.contains keyColumn then columns
  else if plan.attributes.any (·.column == keyColumn) then columns ++ [keyColumn]
  else columns

/-- The query for the rows of a plan with one of the given values in a key column. -/
def queryRelated (plan : LoadPlan) (keyColumn : String) (keys : List Value) : Sql.Query :=
  .select ((plan.columnsWith keyColumn).map .plain) [plan.entity.table]
    (some (.member (.ofColumnName keyColumn) keys))

end LoadPlan

end LazyMapper
