import LazyMapper.Entity.Validation
import LazyMapper.Loader.Tree
import LazyMapper.Plan.Merge
import LazyMapper.Statement.Basic

/-!
# Compiling statements

Compiling checks the mappings of a statement's entities, gathers its options in a tree, checks
what is attached at every relationship path, and merges one plan per entity. The query selects
the columns that the plans load with the row, in the order of the entities and of their fields.
With several entities the columns are labelled with their tables.

A compiled statement also answers which plan applies at a relationship path, where related
instances are loaded afterwards.
-/

set_option autoImplicit false

namespace LazyMapper

/-- A loader fault as the outcome of a computation that checks mappings. -/
def Configuring.ofExcept {α : Type} : Except LoaderFault α → Configuring α
  | .ok result => pure result
  | .error fault => throw (.loader fault)

/-! ## Checking relationship paths -/

/-- The label of a path in messages. -/
def Path.label (path : String) : String := s!"path '{path}'"

/-- The path that a relationship continues. -/
def Path.extend (path name : String) : String :=
  if path.isEmpty then name else path ++ "." ++ name

/-- Everything attached below an entity fits the entity that its path leads to. -/
def OptionForest.check (schema : Schema) (owner : Entity) (path : String) :
    OptionForest → Configuring Unit
  | .empty => pure ()
  | .node name directives below next => do
    let here := Path.extend path name
    let target ← Configuring.ofExcept (schema.follow owner name (Path.label here))
    target.configure
    let _ ← Configuring.ofExcept (LoadPlan.merge target directives)
    below.check schema target here
    next.check schema owner path

/-! ## Compiled statements -/

/-- A statement ready to be sent, and the plans of what it loads. -/
structure CompiledStatement where
  dialect : Sql.Dialect
  entities : List Entity
  /-- One plan per entity, in their order. -/
  plans : List LoadPlan
  query : Sql.Query
  options : OptionTree

namespace CompiledStatement

/-- The SQL text and its parameters. -/
def build (compiled : CompiledStatement) : String × List Value :=
  compiled.query.build compiled.dialect

/-- The SQL text. -/
def sql (compiled : CompiledStatement) : String := compiled.build.1

/-- The parameters of the SQL text. -/
def params (compiled : CompiledStatement) : List Value := compiled.build.2

/-- Rows carry the columns of several entities. -/
def isMultiEntity (compiled : CompiledStatement) : Bool := 1 < compiled.entities.length

/-- The plan of an entity that the statement selects. -/
def planFor? (compiled : CompiledStatement) (entity : Entity) : Option LoadPlan :=
  compiled.plans.find? (·.entity == entity)

end CompiledStatement

namespace Statement

/-- The items of the select list: the columns loaded with the row. -/
def selectItems (labelled : Bool) (plans : List LoadPlan) : List Sql.SelectItem :=
  plans.flatMap fun plan => plan.eagerColumns.map fun column =>
    if labelled then .labelled plan.entity.table column else .plain column

/-- The query that loads plans. -/
def query (statement : Statement) (plans : List LoadPlan) : Sql.Query where
  items := selectItems (decide (1 < statement.entities.length)) plans
  tables := statement.entities.map Entity.table
  condition? := statement.filter?
  order := statement.order
  limit? := statement.limit?

/-- The option trees of the entities fit the entities that their paths lead to. -/
def checkPaths (schema : Schema) (tree : OptionTree) (entities : List Entity) :
    Configuring Unit :=
  entities.forM fun entity =>
    match tree.subtree? entity.table [] with
    | some node => node.below.check schema entity ""
    | none => pure ()

/-- Resolves the options of a statement and puts its query together. Nothing is sent when it
fails. -/
def compile (schema : Schema) (dialect : Sql.Dialect) (statement : Statement) :
    Configuring CompiledStatement := do
  statement.entities.forM Entity.configure
  let tree ← Configuring.ofExcept (OptionTree.build statement.entities statement.options)
  checkPaths schema tree statement.entities
  let plans ← Configuring.ofExcept <| statement.entities.mapM fun entity =>
    LoadPlan.merge entity (tree.directivesAt entity.table [])
  return ⟨dialect, statement.entities, plans, statement.query plans, tree⟩

end Statement

/-! ## Plans at relationship paths -/

/-- What is loaded at the end of a relationship path. -/
structure PathPlan where
  /-- The entity that the path starts from. -/
  root : Entity
  /-- The last relationship of the path. -/
  relationship : Relationship
  /-- The plan of the related entity. -/
  plan : LoadPlan

namespace CompiledStatement

/-- The entity that a chain of relationships leads to. -/
def followAll (schema : Schema) (owner : Entity) (label : String) :
    Path → Except LoaderFault Entity
  | [] => .ok owner
  | name :: rest => do followAll schema (← schema.follow owner name label) label rest

/-- The root of a path and its last relationship, which leads from a parent to a target. -/
def resolvePath (schema : Schema) (compiled : CompiledStatement) (text : String) (path : Path)
    (parent target : Entity) : Except LoaderFault (Entity × Relationship) := do
  match path with
  | [] => throw .noPath
  | first :: rest =>
    let label := Path.label text
    let last := rest.getLastD first
    let root ← rootOfPath compiled.entities first label
    let owner ← followAll schema root label path.dropLast
    if parent != owner then throw (.otherParent label last owner.table parent.table)
    match parent.relationship? last with
    | none => throw (.unknownRelationship label parent.table last)
    | some relationship =>
      if relationship.table != target.table then
        throw (.otherTarget label parent.table last relationship.table target.table)
      return (root, relationship)

/-- The plan for instances of `target` reached from instances of `parent` through the last
relationship of a path. Where nothing is attached it is the plan of the target's defaults. -/
def planAt (schema : Schema) (compiled : CompiledStatement) (text : String)
    (parent target : Entity) : Configuring PathPlan := do
  let path ← Configuring.ofExcept (Path.read text)
  let (root, relationship) ←
    Configuring.ofExcept (compiled.resolvePath schema text path parent target)
  target.configure
  let plan ← Configuring.ofExcept <|
    LoadPlan.merge target (compiled.options.directivesAt root.table path)
  return ⟨root, relationship, plan⟩

end CompiledStatement

end LazyMapper
