import LazyMapper.Plan.Merge

/-!
# Merging in place

A merger that is kept is changed by the directives themselves. A directive looks up what it names
and writes modes one after the other, and what is written stays written: a directive that is
refused takes nothing back.

`Merger.apply` says of the same directives which merger they make of another one.
-/

set_option autoImplicit false

namespace LazyMapper

/-- A computation that changes a merger on its way. What it has changed stays changed when it
fails. -/
abbrev Merging (α : Type) := ExceptT LoaderFault (StateM Merger) α

namespace Merging

/-- The position of an attribute. -/
def index (name : String) : Merging Nat := do
  match (← get).index name with
  | .ok index => return index
  | .error fault => throw fault

/-- Writes the mode at a position. -/
def write (index : Nat) (mode : ResolvedMode) : Merging Unit := modify (·.setAt index mode)

/-- Writes the modes that a rule gives, field by field. -/
def writeEach (mode? : Field → Option ResolvedMode) : Merging Unit := do
  (← get).entity.fields.zipIdx.forM fun (field, index) =>
    match mode? field with
    | some mode => write index mode
    | none => return ()

/-- Leaves all attributes but the primary key out of the row. -/
def deferAll (raising : Bool) : Merging Unit := do
  let entity := (← get).entity
  writeEach fun field =>
    if entity.isPrimaryKey field.name then none else some (Merger.leftOut field raising)

/-- Leaves one attribute out of the row, unless it is in the primary key. -/
def deferOne (name : String) (raising : Bool) : Merging Unit := do
  let index ← index name
  let entity := (← get).entity
  unless entity.isPrimaryKey name do
    match entity.fields[index]? with
    | some field => write index (Merger.leftOut field raising)
    | none => return ()

end Merging

/-- Applies the directive to a merger in place. -/
def Directive.merge : Directive → Merging Unit
  | .defer .all raising => Merging.deferAll raising
  | .defer (.named name) raising => Merging.deferOne name raising
  | .undefer .all => Merging.writeEach fun _ => some .eager
  | .undefer (.named name) => do Merging.write (← Merging.index name) .eager
  | .undeferGroup group => do
    let entity := (← get).entity
    unless entity.hasGroup group do throw (.unknownGroup entity.table group)
    Merging.writeEach fun field => if field.load.group? = some group then some .eager else none
  | .loadOnly names raising => do
    let kept ← names.mapM Merging.index
    Merging.deferAll raising
    kept.forM fun index => Merging.write index .eager

end LazyMapper
