import LazyMapper.Error
import LazyMapper.Loader.Directive
import LazyMapper.Plan.Basic

/-!
# Merging directives into load plans

A merger holds one mode per field of an entity. It starts from the defaults of the mapping and
applies directives one after the other, a later one overriding an earlier one for the same
attribute. A directive that names an unknown attribute or group is refused as a whole.

Attributes of the primary key are always loaded with the row. An attribute that a directive
leaves out of the row stays in the deferred group of its mapping.
-/

set_option autoImplicit false

namespace LazyMapper

/-- The modes of an entity's attributes while directives are merged. -/
structure Merger where
  entity : Entity
  /-- One mode per field. -/
  modes : List ResolvedMode

namespace Merger

/-- The mode of a field that no directive is about. -/
def defaultMode (entity : Entity) (field : Field) : ResolvedMode :=
  if entity.isPrimaryKey field.name then .eager else .ofLoadMode field.load

/-- The merger with the defaults of the mapping. -/
def start (entity : Entity) : Merger := ⟨entity, entity.fields.map (defaultMode entity)⟩

/-- The position of an attribute. -/
def index (merger : Merger) (name : String) : Except LoaderFault Nat :=
  match merger.entity.index? name with
  | some index => .ok index
  | none => .error (.unknownAttribute merger.entity.table name)

/-- The mode of a field that is left out of the row. -/
def leftOut (field : Field) (raising : Bool) : ResolvedMode :=
  if raising then .raising else .deferred field.load.group?

/-- The modes when each field changes its mode by a rule. -/
def changeEach (merger : Merger) (rule : Field → ResolvedMode → ResolvedMode) : Merger :=
  { merger with modes := List.zipWith rule merger.entity.fields merger.modes }

/-- The modes with one of them replaced. -/
def setAt (merger : Merger) (index : Nat) (mode : ResolvedMode) : Merger :=
  { merger with modes := merger.modes.set index mode }

/-- All attributes but the primary key are left out of the row. -/
def deferAll (merger : Merger) (raising : Bool) : Merger :=
  merger.changeEach fun field mode =>
    if merger.entity.isPrimaryKey field.name then mode else leftOut field raising

/-- One attribute is left out of the row, unless it is in the primary key. -/
def deferOne (merger : Merger) (name : String) (raising : Bool) : Except LoaderFault Merger := do
  let index ← merger.index name
  if merger.entity.isPrimaryKey name then return merger
  match merger.entity.fields[index]? with
  | some field => return merger.setAt index (leftOut field raising)
  | none => return merger

/-- The attributes at the given positions are loaded with the row. -/
def undeferAt (merger : Merger) (indices : List Nat) : Merger :=
  indices.foldl (fun merger index => merger.setAt index .eager) merger

/-- The modes after one more directive. -/
def apply (merger : Merger) : Directive → Except LoaderFault Merger
  | .defer .all raising => .ok (merger.deferAll raising)
  | .defer (.named name) raising => merger.deferOne name raising
  | .undefer .all => .ok (merger.changeEach fun _ _ => .eager)
  | .undefer (.named name) => do return merger.setAt (← merger.index name) .eager
  | .undeferGroup group =>
    if merger.entity.hasGroup group then
      .ok (merger.changeEach fun field mode =>
        if field.load.group? = some group then .eager else mode)
    else .error (.unknownGroup merger.entity.table group)
  | .loadOnly names raising => do
    let kept ← names.mapM merger.index
    return (merger.deferAll raising).undeferAt kept

/-- The modes after more directives, up to the first that is refused. -/
def applyAll (merger : Merger) : List Directive → Except LoaderFault Merger
  | [] => .ok merger
  | directive :: rest => do (← merger.apply directive).applyAll rest

/-- The attribute of a field with its mode. -/
def planned (entity : Entity) (field : Field) (mode : ResolvedMode) : PlannedAttribute :=
  ⟨field.name, field.column, mode, entity.isPrimaryKey field.name⟩

/-- The plan with the modes reached. -/
def finish (merger : Merger) : LoadPlan :=
  ⟨merger.entity, List.zipWith (planned merger.entity) merger.entity.fields merger.modes⟩

end Merger

namespace LoadPlan

/-- The plan without any directive. -/
def defaults (entity : Entity) : LoadPlan := (Merger.start entity).finish

/-- The plan of an entity under directives in the order in which they are attached. -/
def merge (entity : Entity) (directives : List Directive) : Except LoaderFault LoadPlan := do
  return (← (Merger.start entity).applyAll directives).finish

end LoadPlan

end LazyMapper
