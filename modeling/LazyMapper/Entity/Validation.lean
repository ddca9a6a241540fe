import LazyMapper.Entity.Basic
import LazyMapper.Error

/-!
# Checking mappings

`Entity.validate` looks at the fields, then at the primary key, then at the relationships, and
reports the first fault. `Entity.configure` is the same check with a memory: a type name whose
mapping passed once is not checked again, one that failed is.
-/

set_option autoImplicit false

namespace LazyMapper

namespace Entity

/-- No attribute is mapped twice, and no deferred group is without a name. `seen` holds the names
of the fields before. -/
def validateFields (table : String) (seen : List String) : List Field → Except MappingFault Unit
  | [] => .ok ()
  | field :: rest =>
    if seen.contains field.name then .error (.mappedTwice table field.name)
    else if field.load = .deferredGroup "" then .error (.namelessGroup table field.name)
    else validateFields table (field.name :: seen) rest

/-- Every name of the primary key is a field that is loaded with the row. -/
def validateKey (entity : Entity) : List String → Except MappingFault Unit
  | [] => .ok ()
  | name :: rest =>
    match entity.field? name with
    | none => .error (.unmappedKey entity.table name)
    | some field =>
      if field.load = .eager then validateKey entity rest
      else .error (.deferredKey entity.table name)

/-- A relationship has the key that its kind needs, and a key on the parent is a field. -/
def validateRelationship (entity : Entity) (relationship : Relationship) :
    Except MappingFault Unit :=
  if relationship.keyedOnParent then
    match relationship.localKey? with
    | none => .error (.noLocalKey entity.table relationship.name)
    | some key =>
      if (entity.field? key).isSome then .ok ()
      else .error (.unmappedLocalKey entity.table relationship.name key)
  else if relationship.remoteKey?.isSome then .ok ()
  else .error (.noRemoteKey entity.table relationship.name)

/-- Every relationship has its key. -/
def validateRelationships (entity : Entity) : List Relationship → Except MappingFault Unit
  | [] => .ok ()
  | relationship :: rest => do
    validateRelationship entity relationship
    validateRelationships entity rest

/-- The mapping is consistent, or its first fault. -/
def validate (entity : Entity) : Except MappingFault Unit := do
  validateFields entity.table [] entity.fields
  if entity.primaryKey.isEmpty then throw (.noPrimaryKey entity.table)
  validateKey entity entity.primaryKey
  validateRelationships entity entity.relationships

end Entity

/-! ## Remembered checks -/

/-- The type names whose mapping has passed the check. -/
abbrev Configured := List String

/-- A computation that checks mappings on its way. What it has learned is kept when it fails. -/
abbrev Configuring (α : Type) := ExceptT Error (StateM Configured) α

namespace Entity

/-- The check of a mapping, skipped when the type name has passed before. -/
def configure (entity : Entity) : Configuring Unit := do
  unless (← get).contains entity.typeName do
    match entity.validate with
    | .ok () => modify (entity.typeName :: ·)
    | .error fault => throw (.mapping fault)

end Entity

end LazyMapper
