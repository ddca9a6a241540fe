import LazyMapper.Session.Action

/-!
# From rows to instances

A row is merged into the entries of a session. A live entry keeps what it has loaded and takes
from the row only what it has not; otherwise the row makes a fresh entry, which replaces a
deleted or detached one of the same key.
-/

set_option autoImplicit false

namespace LazyMapper

namespace Model

/-- The positions of the attributes whose columns a row selects. -/
def selectedBy (model : Model) (row : Row) : List Nat :=
  (List.range model.entity.fields.length).filter fun index =>
    (model.entity.fields[index]?).any fun field => row.selects field.column

/-- The attributes at the given positions with their values in a row. -/
def assignments (model : Model) (row : Row) (indices : List Nat) : List (String × Value) :=
  (indices.filterMap (model.entity.fields[·]?)).map fun field =>
    (field.name, row.valueOf field.column)

end Model

namespace Entry

/-- The entry with what the row selects and the entry has not loaded. When a value is refused,
the values assigned before it stay in the record but are not loaded. -/
def absorb (entry : Entry) (model : Model) (row : Row) : Entry × Except Error Unit :=
  let missing := (model.selectedBy row).filter (!entry.loaded.contains ·)
  match model.assignAll entry.record (model.assignments row missing) with
  | (record, .ok ()) =>
    ({ entry with record, loaded := entry.loaded.insertAll missing, state := .persistent },
      .ok ())
  | (record, .error error) => ({ entry with record }, .error error)

end Entry

namespace Action

/-- The entry of a key after a record and the row it was made from are merged into it. -/
def mergeRecord (model : Model) (row : Row) (record : Record) (key : Key) : Action Entry := do
  match ((← session).identities.find? key).filter (·.state.isLive) with
  | some entry =>
    let (entry, result) := entry.absorb model row
    modifySession (·.withEntry key entry)
    ofExcept result
    return entry
  | none =>
    let loaded := AttributeSet.ofList model.entity.fields.length (model.selectedBy row)
    let entry := Entry.fresh model record loaded (← takeHandle)
    modifySession (·.withEntry key entry)
    return entry

/-- Merges a row and returns an instance with the given plan. -/
def mergeRow [Hashable Digest] (model : Model) (plan : LoadPlan) (row : Row) : Action Instance := do
  modifySession (·.meet model)
  let record ← ofExcept (model.fromRow row)
  let key := Key.ofRecord model record
  return .ofEntry model key plan (← mergeRecord model row record key)

end Action

end LazyMapper
