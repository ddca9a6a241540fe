import LazyMapper.Entity.Basic
import LazyMapper.Error
import LazyMapper.Row

/-!
# Models

A model is an entity together with its behaviour: how a record is made from a row, what it
reports, and how one attribute is assigned. The library relies on nothing else, and what it does
is stated for every model.

`Model.ofEntity` is the ordinary behaviour. A record holds one value per field, an attribute that
the row lacks becomes null unless it is in the primary key, and a value is refused when it does
not fit the attribute's type.
-/

set_option autoImplicit false

namespace LazyMapper

/-- What a model keeps of one row. -/
abbrev Record := List Value

/-- An entity with its behaviour. -/
structure Model where
  entity : Entity
  /-- The record of a row. Attributes that the row lacks are filled with a placeholder. -/
  fromRow : Row → Except Error Record
  /-- The attributes that a record reports, with their values. -/
  toRow : Record → List (String × Value)
  /-- The values of the primary key attributes. -/
  keyOf : Record → List Value
  /-- The record with one attribute assigned. -/
  setAttribute : Record → String → Value → Except Error Record

namespace Model

/-- The table of the model. -/
def table (model : Model) : String := model.entity.table

/-- The value that a record reports for an attribute. -/
def attribute? (model : Model) (record : Record) (name : String) : Option Value :=
  (model.toRow record).lookup name

/-- The value of an attribute, null when the record does not report it. -/
def attributeOrNull (model : Model) (record : Record) (name : String) : Value :=
  (model.attribute? record name).getD .null

/-- The column of an attribute. -/
def column (model : Model) (name : String) : Except Error String :=
  match model.entity.field? name with
  | some field => .ok field.column
  | none => .error (.mapping (.noKeyAttribute model.table name))

/-- Assigns attributes one after the other. A refused value ends this; what was assigned before
it stays assigned. -/
def assignAll (model : Model) (record : Record) :
    List (String × Value) → Record × Except Error Unit
  | [] => (record, .ok ())
  | (name, value) :: rest =>
    match model.setAttribute record name value with
    | .ok record => model.assignAll record rest
    | .error error => (record, .error error)

/-! ## The ordinary behaviour -/

/-- The type of an attribute, as far as values are checked against it. -/
inductive AttributeType where
  | any
  | integer
  | text
deriving DecidableEq, Repr

/-- The value fits the type. Null fits every type. -/
def AttributeType.admits (type : AttributeType) (value : Value) : Bool :=
  match type with
  | .any => true
  | .integer => value.isNull || value.asInt64.isSome
  | .text => value.isNull || value.asText.isSome

/-- The value, if it fits the type of an attribute. -/
def checked (entity : Entity) (types : List (String × AttributeType)) (name : String)
    (value : Value) : Except Error Value :=
  if ((types.lookup name).getD .any).admits value then .ok value
  else .error (.mapping (.badValue entity.table name value.display))

/-- The value of a field in a row. -/
def valueFrom (entity : Entity) (types : List (String × AttributeType)) (row : Row)
    (field : Field) : Except Error Value :=
  match row.find? field.column with
  | some value => checked entity types field.name value
  | none =>
    if entity.isPrimaryKey field.name then
      .error (.mapping (.missingFromRow entity.table field.name))
    else checked entity types field.name .null

/-- The model of an entity whose attributes have the given types, and which does not report the
hidden ones. -/
def ofEntity (entity : Entity) (types : List (String × AttributeType)) (hidden : List String) :
    Model where
  entity := entity
  fromRow := fun row => entity.fields.mapM (valueFrom entity types row)
  toRow := fun record =>
    ((entity.fields.map Field.name).zip record).filter fun entry => !hidden.contains entry.1
  keyOf := fun record =>
    entity.primaryKey.map fun name =>
      ((entity.index? name).bind (record[·]?)).getD .null
  setAttribute := fun record name value =>
    match entity.index? name with
    | none => .error (.mapping (.noAttribute entity.table name))
    | some index => do return record.set index (← checked entity types name value)

end Model

end LazyMapper
