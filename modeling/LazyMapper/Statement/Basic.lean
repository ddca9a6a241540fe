import LazyMapper.Loader.Option
import LazyMapper.Sql.Query

/-!
# Statements

A statement selects instances of one or more entities. Options, filters and terms of the order
add to those given before; of several limits the last counts.
-/

set_option autoImplicit false

namespace LazyMapper

/-- A statement over mapped entities. -/
structure Statement where
  entities : List Entity
  options : List LoaderOption
  filter? : Option Sql.Expr
  order : List Sql.OrderTerm
  limit? : Option Nat

namespace Statement

/-- The statement for all instances of an entity. -/
def ofEntity (entity : Entity) : Statement := ⟨[entity], [], none, [], none⟩

/-- The statement over one more entity, unless it is already selected. -/
def addEntity (statement : Statement) (entity : Entity) : Statement :=
  if statement.entities.contains entity then statement
  else { statement with entities := statement.entities ++ [entity] }

/-- The statement with more options. -/
def withOptions (statement : Statement) (options : List LoaderOption) : Statement :=
  { statement with options := statement.options ++ options }

/-- The statement with one more condition. -/
def filter (statement : Statement) (condition : Sql.Expr) : Statement :=
  let whole :=
    match statement.filter? with
    | some before => before.and condition
    | none => condition
  { statement with filter? := some whole }

/-- The statement with one more term of the order. -/
def orderBy (statement : Statement) (column : String) (descending : Bool) : Statement :=
  { statement with order := statement.order ++ [⟨column, descending⟩] }

/-- The statement for at most so many rows. -/
def limit (statement : Statement) (count : Nat) : Statement :=
  { statement with limit? := some count }

end Statement

end LazyMapper
