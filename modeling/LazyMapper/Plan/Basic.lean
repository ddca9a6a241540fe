import LazyMapper.Entity.Basic

/-!
# Load plans

A load plan says for every attribute of an entity how it is loaded by one statement. Plans are
made by merging directives over the defaults of the mapping (`LazyMapper.Plan.Merge`) and travel
with the instances that the statement materialises.
-/

set_option autoImplicit false

namespace LazyMapper

/-- How a statement loads an attribute. -/
inductive ResolvedMode where
  /-- Together with the row. -/
  | eager
  /-- On first access, with the attributes deferred under the same group if there is one. -/
  | deferred (group? : Option String)
  /-- Never: access is an error. -/
  | raising
deriving DecidableEq, Repr

namespace ResolvedMode

/-- The mode of an attribute that no directive is about. -/
def ofLoadMode : LoadMode → ResolvedMode
  | .eager => .eager
  | .deferred => .deferred none
  | .deferredGroup group => .deferred (some group)
  | .raiseOnAccess => .raising

/-- The attribute is loaded with the row. -/
def isEager : ResolvedMode → Bool
  | .eager => true
  | _ => false

end ResolvedMode

/-- An attribute in a load plan. -/
structure PlannedAttribute where
  name : String
  column : String
  mode : ResolvedMode
  primaryKey : Bool
deriving DecidableEq, Repr

/-- The load plan of an entity. -/
structure LoadPlan where
  entity : Entity
  /-- The attributes in the order of the entity's fields. -/
  attributes : List PlannedAttribute

namespace LoadPlan

/-- Plans are equal when their entities are and their attributes agree. -/
instance : BEq LoadPlan :=
  ⟨fun left right => left.entity == right.entity && left.attributes == right.attributes⟩

/-- The position of the first attribute with a name. -/
def index? (plan : LoadPlan) (name : String) : Option Nat :=
  plan.attributes.findIdx? (·.name == name)

/-- The first attribute with a name. -/
def attribute? (plan : LoadPlan) (name : String) : Option PlannedAttribute :=
  plan.attributes.find? (·.name == name)

/-- The mode of an attribute. -/
def mode? (plan : LoadPlan) (name : String) : Option ResolvedMode :=
  (plan.attribute? name).map PlannedAttribute.mode

/-- The attribute is loaded with the row. -/
def isEager (plan : LoadPlan) (name : String) : Bool :=
  (plan.mode? name).any ResolvedMode.isEager

/-- The positions of the attributes that a condition holds of. -/
def indicesWhere (plan : LoadPlan) (condition : PlannedAttribute → Bool) : List Nat :=
  (List.range plan.attributes.length).filter fun index =>
    (plan.attributes[index]?).any condition

/-- The attributes at the given positions. -/
def attributesAt (plan : LoadPlan) (indices : List Nat) : List PlannedAttribute :=
  indices.filterMap (plan.attributes[·]?)

/-- The attributes that are loaded with the row. -/
def eagerAttributes (plan : LoadPlan) : List PlannedAttribute :=
  plan.attributes.filter (·.mode.isEager)

/-- The columns that are selected with the row. -/
def eagerColumns (plan : LoadPlan) : List String :=
  plan.eagerAttributes.map PlannedAttribute.column

/-- The positions of the attributes that are loaded with the row. -/
def eagerIndices (plan : LoadPlan) : List Nat := plan.indicesWhere (·.mode.isEager)

/-- The positions of the attributes that the plan defers under a group. -/
def groupMembers (plan : LoadPlan) (group : String) : List Nat :=
  plan.indicesWhere (·.mode == .deferred (some group))

end LoadPlan

end LazyMapper
