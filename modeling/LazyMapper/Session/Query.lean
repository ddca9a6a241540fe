import LazyMapper.Session.Materialise
import LazyMapper.Statement.Identity

/-!
# Loading instances

The statements of a session: all instances of a model, the first of them, pairs of instances of
two models, the instance of a primary key, and the instances related to given ones. Each sends at
most one query, after a `BEGIN` if one is due, and merges the rows in their order. What can be
checked before the query is.
-/

set_option autoImplicit false

namespace LazyMapper

namespace Action

variable [Hashable Digest]

/-- Loads the instances of a model that a statement over one entity selects. -/
def all (schema : Schema) (model : Model) (statement : Statement) : Action (List Instance) := do
  let compiled ← compile schema statement
  if compiled.isMultiEntity then fail (.usage (.severalEntities compiled.entities.length))
  let plan ← planFor compiled model
  let rows ← query compiled.build
  rows.mapM (mergeRow model plan)

/-- Loads the first instance that a statement selects. -/
def first (schema : Schema) (model : Model) (statement : Statement) : Action (Option Instance) := do
  return (← all schema model (statement.limit 1)).head?

/-- Merges a row of two models. -/
def mergePair (left right : Model) (leftPlan rightPlan : LoadPlan) (row : Row) :
    Action (Instance × Instance) := do
  let leftInstance ←
    mergeRow left leftPlan (row.stripLabel (Sql.SelectItem.label left.table))
  let rightInstance ←
    mergeRow right rightPlan (row.stripLabel (Sql.SelectItem.label right.table))
  return (leftInstance, rightInstance)

/-- Loads the pairs of instances that a statement over two entities selects. -/
def allPairs (schema : Schema) (left right : Model) (statement : Statement) :
    Action (List (Instance × Instance)) := do
  let compiled ← compile schema statement
  if compiled.entities != [left.entity, right.entity] then
    fail (.usage (.notThePair left.table right.table))
  let leftPlan ← planFor compiled left
  let rightPlan ← planFor compiled right
  let rows ← query compiled.build
  rows.mapM (mergePair left right leftPlan rightPlan)

/-- The statement for the instance of a primary key. -/
def keyStatement (model : Model) (statement : Statement) :
    List String → List Value → Except Error Statement
  | name :: names, value :: values => do
    let column ← model.column name
    keyStatement model (statement.filter ((Sql.Expr.ofColumnName column).equals value))
      names values
  | _, _ => .ok statement

/-- Returns the instance of a primary key. A live entry answers without a query. -/
def getByKey (schema : Schema) (model : Model) (values : List Value)
    (options : List LoaderOption) : Action (Option Instance) := do
  let names := model.entity.primaryKey
  if values.length ≠ names.length then
    fail (.usage (.keyLength model.table names.length values.length))
  let start := (Statement.ofEntity model.entity).withOptions options
  let compiled ← compile schema (← ofExcept (keyStatement model start names values))
  let plan ← planFor compiled model
  let key := Key.ofValues model values
  match ((← session).identities.find? key).filter (·.state.isLive) with
  | some entry => return some (.ofEntry model key plan entry)
  | none =>
    match ← query compiled.build with
    | row :: _ => return some (← mergeRow model plan row)
    | [] => return none

/-- Returns the instance of a primary key of one attribute. -/
def get (schema : Schema) (model : Model) (value : Value) (options : List LoaderOption) :
    Action (Option Instance) :=
  getByKey schema model [value] options

/-! ## Related instances -/

/-- The attributes of the parent and of the related model that a relationship joins. -/
def joinKeys? (parent related : Model) (relationship : Relationship) :
    Option (String × String) := do
  if relationship.keyedOnParent then
    return (← relationship.localKey?,
      ← relationship.remoteKey? <|> related.entity.primaryKey.head?)
  else
    return (← parent.entity.primaryKey.head?, ← relationship.remoteKey?)

/-- The value of an attribute of an attached parent. -/
def parentKey (session : Session) (model : Model) (name : String) (index : Nat) (path : String)
    (parent : Instance) : Except Error Value := do
  match session.attached? parent with
  | none => throw (.detached model.table)
  | some entry =>
    if entry.loaded.contains index then return model.attributeOrNull entry.record name
    throw (.usage (.parentKeyUnloaded model.table name path))

/-- The values other than null, without those equal to an earlier one. -/
def distinctKeys (values : List Value) : List Value :=
  values.foldl (fun keys value =>
    if value.isNull || keys.contains value then keys else keys ++ [value]) []

/-- Loads the instances related to parents through a path with one query. The plan is what the
options of the statement attach at the path. -/
def loadRelated (schema : Schema) (parent related : Model) (statement : Statement)
    (parents : List Instance) (path : String) : Action (List Instance) := do
  let compiled ← compile schema statement
  let target ← ofConfiguring (compiled.planAt schema path parent.entity related.entity)
  match joinKeys? parent related target.relationship with
  | none => fail (.mapping (.noJoinKeys parent.table target.relationship.name))
  | some (parentName, relatedName) =>
    let column ← ofExcept (related.column relatedName)
    match parent.entity.index? parentName with
    | none => fail (.mapping (.noKeyAttribute parent.table parentName))
    | some index =>
      let session ← session
      let values ←
        ofExcept (parents.mapM (parentKey session parent parentName index path))
      let keys := distinctKeys values
      if keys.isEmpty then return []
      let rows ← query ((target.plan.queryRelated column keys).build session.config.dialect)
      rows.mapM (mergeRow related target.plan)

end Action

end LazyMapper
