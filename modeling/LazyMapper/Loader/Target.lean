import LazyMapper.Loader.Flat

/-!
# The root entity of an option

Which of a statement's entities an option's path starts from. A root that the option names must
be selected. Otherwise a single entity is the root; among several it is the one that owns the
path's first relationship or, without a path, the named attribute or group. Options about all
attributes need a path or a named root then.
-/

set_option autoImplicit false

namespace LazyMapper

/-- The only candidate, or the fault of having none or several. -/
def onlyOne (candidates : List Entity) (nobody : LoaderFault)
    (several : List String → LoaderFault) : Except LoaderFault Entity :=
  match candidates with
  | [] => .error nobody
  | [entity] => .ok entity
  | many => .error (several (many.map Entity.table))

/-- The entity that a path starts from whose first relationship is given. -/
def rootOfPath (entities : List Entity) (first label : String) : Except LoaderFault Entity :=
  match entities with
  | [entity] => .ok entity
  | _ =>
    onlyOne (entities.filter fun entity => (entity.relationship? first).isSome)
      (.noRelationshipOwner label first) (.manyRelationshipOwners label first)

/-- The entity that a relationship leads to. -/
def Schema.follow (schema : Schema) (owner : Entity) (name label : String) :
    Except LoaderFault Entity :=
  match owner.relationship? name with
  | none => .error (.unknownRelationship label owner.table name)
  | some relationship =>
    match schema.target? relationship with
    | none => .error (.undeclaredTarget label owner.table name)
    | some target => .ok target

namespace FlatOption

/-- The owner, among several entities, of what a directive without a path is about. -/
def ownerOf (entities : List Entity) (label : String) : Directive → Except LoaderFault Entity
  | .defer (.named name) _ | .undefer (.named name) =>
    onlyOne (entities.filter fun entity => (entity.field? name).isSome)
      (.noAttributeOwner label name) (.manyAttributeOwners label name)
  | .undeferGroup group =>
    onlyOne (entities.filter fun entity => entity.hasGroup group)
      (.noGroupOwner label group) (.manyGroupOwners label group)
  | .defer .all _ | .undefer .all | .loadOnly .. =>
    .error (.unqualified label (entities.map Entity.table))

/-- The root entity of an option. -/
def root (entities : List Entity) (option : FlatOption) : Except LoaderFault Entity :=
  match option.root?, entities, option.path, option.directive? with
  | some entity, _, _, _ =>
    if entities.contains entity then .ok entity
    else .error (.rootNotSelected option.label entity.table)
  | none, [entity], _, _ => .ok entity
  | none, _, first :: _, _ => rootOfPath entities first option.label
  | none, _, [], none => .error (.emptyOption option.label)
  | none, _, [], some directive => ownerOf entities option.label directive

/-- The root entity of an option, which must have the first relationship of the path. -/
def checkedRoot (entities : List Entity) (option : FlatOption) : Except LoaderFault Entity := do
  let entity ← option.root entities
  match option.path with
  | first :: _ =>
    if (entity.relationship? first).isNone then
      throw (.unknownRelationship option.label entity.table first)
  | [] => pure ()
  return entity

end FlatOption

end LazyMapper
