import LazyMapper.Attribute.Field

/-!
# Mapped entities

An `Entity` is what the library knows of a model: its table, its fields in the order of their
declaration, the names of its primary key attributes and its relationships. Entities refer to
one another in circles, so a relationship names its target, and a `Schema` says which entity a
name stands for.

Entities are compared by type name and table. Relationships are compared by all they declare,
except that of the target only its presence counts.
-/

set_option autoImplicit false

namespace LazyMapper

/-! ## Relationships -/

/-- How many instances stand on the two sides of a relationship. -/
inductive Cardinality where
  | oneToOne
  | manyToOne
  | oneToMany
deriving DecidableEq, Repr

/-- A relationship to another entity. -/
structure Relationship where
  name : String
  /-- The table of the related entity. -/
  table : String
  cardinality : Cardinality
  /-- The attribute of the parent that holds the key. -/
  localKey? : Option String
  /-- The attribute of the related entity that holds the key. -/
  remoteKey? : Option String
  /-- The relationship of the related entity that leads back. -/
  backPopulates? : Option String
  /-- The name of the related entity in the schema, if it is declared. -/
  target? : Option String
deriving Repr

namespace Relationship

/-- A relationship of which only the related table is known. -/
def toTable (name table : String) (cardinality : Cardinality) : Relationship :=
  ⟨name, table, cardinality, none, none, none, none⟩

/-- The relationship of no name to no table, many to one. -/
instance : Inhabited Relationship := ⟨toTable "" "" .manyToOne⟩

def withLocalKey (relationship : Relationship) (key : String) : Relationship :=
  { relationship with localKey? := some key }

def withRemoteKey (relationship : Relationship) (key : String) : Relationship :=
  { relationship with remoteKey? := some key }

def withBackPopulates (relationship : Relationship) (name : String) : Relationship :=
  { relationship with backPopulates? := some name }

def withTarget (relationship : Relationship) (target : String) : Relationship :=
  { relationship with target? := some target }

/-- The parent's row holds the key. -/
def keyedOnParent (relationship : Relationship) : Bool :=
  match relationship.cardinality with
  | .manyToOne => true
  | .oneToOne => relationship.localKey?.isSome
  | .oneToMany => false

/-- Equality up to the identity of the target. -/
protected def beq (left right : Relationship) : Bool :=
  left.name == right.name && left.table == right.table &&
    left.cardinality == right.cardinality && left.localKey? == right.localKey? &&
    left.remoteKey? == right.remoteKey? && left.backPopulates? == right.backPopulates? &&
    left.target?.isSome == right.target?.isSome

instance : BEq Relationship := ⟨Relationship.beq⟩

end Relationship

/-! ## Entities -/

/-- A mapped entity. -/
structure Entity where
  /-- The table, which also names the entity in loader options. -/
  table : String
  /-- The name of the model type. -/
  typeName : String
  fields : List Field
  /-- The names of the primary key attributes. -/
  primaryKey : List String
  relationships : List Relationship
deriving Repr

namespace Entity

/-- Entities are compared by type name and table. -/
instance : BEq Entity :=
  ⟨fun left right => left.typeName == right.typeName && left.table == right.table⟩

/-- The first field with a name. -/
def field? (entity : Entity) (name : String) : Option Field :=
  entity.fields.find? (·.name == name)

/-- The position of the first field with a name. -/
def index? (entity : Entity) (name : String) : Option Nat :=
  entity.fields.findIdx? (·.name == name)

/-- The attribute is part of the primary key. -/
def isPrimaryKey (entity : Entity) (name : String) : Bool := entity.primaryKey.contains name

/-- Some attribute belongs to the deferred group. -/
def hasGroup (entity : Entity) (group : String) : Bool :=
  entity.fields.any (·.load.group? == some group)

/-- The first relationship with a name. -/
def relationship? (entity : Entity) (name : String) : Option Relationship :=
  entity.relationships.find? (·.name == name)

/-- The positions of the fields whose names are in the primary key. -/
def keyIndices (entity : Entity) : List Nat :=
  (List.range entity.fields.length).filter fun index =>
    (entity.fields[index]?).any fun field => entity.isPrimaryKey field.name

end Entity

/-! ## Schemas -/

/-- The entities that relationships can name. -/
structure Schema where
  entities : List (String × Entity)

namespace Schema

/-- The entity of a name. -/
def find? (schema : Schema) (name : String) : Option Entity := schema.entities.lookup name

/-- The entity that a relationship leads to, if the relationship declares it. -/
def target? (schema : Schema) (relationship : Relationship) : Option Entity :=
  relationship.target?.bind schema.find?

end Schema

end LazyMapper
