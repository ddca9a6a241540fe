import LazyMapper.Attribute.Set
import LazyMapper.Plan.Basic
import LazyMapper.Session.Key

/-!
# Entries and instances

A session keeps one entry per identity: the record, which of its attributes are loaded, and the
state of the identity. An `Instance` is a handle to an entry. It carries a copy of what the entry
held when the copy was taken, and the load plan of the statement that produced it. The plan
decides what a read of an attribute that is not loaded does.

An entry that replaces another one for the same key has a new handle number, by which instances
of the old entry are told from those of the new one. The version of an entry counts its
expirations.

The values of attributes that are not loaded are placeholders and are never read.
-/

set_option autoImplicit false

namespace LazyMapper

/-- The state of an identity in a session. -/
inductive EntryState where
  /-- The loaded attributes are current. -/
  | persistent
  /-- Attributes were expired and are loaded again on access. -/
  | expired
  /-- The row was found to be gone. -/
  | deleted
  /-- The identity was detached from the session. -/
  | detached
deriving DecidableEq, Repr

namespace EntryState

/-- The entry stands for its row: neither deleted nor detached. -/
def isLive : EntryState → Bool
  | .persistent | .expired => true
  | .deleted | .detached => false

/-- The state after an expiration. -/
def expire : EntryState → EntryState
  | .persistent => .expired
  | other => other

/-- The state after attributes were loaded on access. -/
def reload : EntryState → EntryState
  | .expired => .persistent
  | other => other

end EntryState

/-- What a session knows of one identity. -/
structure Entry where
  model : Model
  record : Record
  /-- The attributes whose values in the record are loaded. -/
  loaded : AttributeSet
  handle : Nat
  version : Nat
  state : EntryState

namespace Entry

/-- The entry of a new identity. -/
def fresh (model : Model) (record : Record) (loaded : AttributeSet) (handle : Nat) : Entry :=
  ⟨model, record, loaded, handle, 0, .persistent⟩

/-- The entry with no attribute loaded but those of the primary key that were. -/
def expireAll (entry : Entry) (keyIndices : List Nat) : Entry :=
  { entry with
    loaded := entry.loaded.restrict keyIndices
    version := entry.version + 1
    state := entry.state.expire }

/-- The entry with the given attributes not loaded, except those of the primary key. -/
def expire (entry : Entry) (indices keyIndices : List Nat) : Entry :=
  { entry with
    loaded := entry.loaded.eraseAll (indices.filter fun index => !keyIndices.contains index)
    version := entry.version + 1
    state := entry.state.expire }

/-- The values of the primary key. -/
def key (entry : Entry) : List Value := entry.model.keyOf entry.record

end Entry

/-- A handle to an entry, with a copy of its contents. -/
structure Instance where
  model : Model
  key : Key
  handle : Nat
  /-- The load plan of the statement that produced the instance. -/
  plan : LoadPlan
  record : Record
  loaded : AttributeSet
  version : Nat

namespace Instance

/-- The handle to an entry. -/
def ofEntry (model : Model) (key : Key) (plan : LoadPlan) (entry : Entry) : Instance :=
  ⟨model, key, entry.handle, plan, entry.record, entry.loaded, entry.version⟩

/-- The instance with a new copy of its entry. -/
def sync (inst : Instance) (entry : Entry) : Instance :=
  { inst with record := entry.record, loaded := entry.loaded, version := entry.version }

/-- The values of the primary key. -/
def primaryKey (inst : Instance) : List Value := inst.model.keyOf inst.record

/-- The key is that of the record. -/
def keyMatchesRecord [Hashable Digest] (inst : Instance) : Bool :=
  inst.key == Key.ofRecord inst.model inst.record

/-- The fault of naming an attribute that the model does not have. -/
def unknownAttribute (inst : Instance) (name : String) : Error :=
  .loader (.unknownAttribute inst.model.table name)

/-- The position of an attribute. -/
def index (inst : Instance) (name : String) : Except Error Nat :=
  match inst.plan.index? name with
  | some index => .ok index
  | none => .error (inst.unknownAttribute name)

/-- Access to the attribute at a position is an error unless the attribute is loaded. -/
def raisesAt (inst : Instance) (index : Nat) : Bool :=
  (inst.plan.attributes[index]?).any (·.mode == .raising)

/-- The attribute was loaded when the copy was taken. -/
def isLoaded (inst : Instance) (name : String) : Bool :=
  (inst.plan.index? name).any inst.loaded.contains

/-- The names of the attributes that were loaded when the copy was taken. -/
def loadedAttributes (inst : Instance) : List String :=
  (inst.plan.attributesAt inst.loaded.toList).map PlannedAttribute.name

/-- The names of the attributes that were not loaded when the copy was taken. -/
def unloadedAttributes (inst : Instance) : List String :=
  let indices := List.range inst.plan.attributes.length
  (inst.plan.attributesAt (indices.filter (!inst.loaded.contains ·))).map PlannedAttribute.name

/-- Reads an attribute from the copy: its value if it was loaded, nothing if it would have to be
fetched, and an error if access to it is one. -/
def get (inst : Instance) (name : String) : Except Error (Option Value) := do
  let index ← inst.index name
  if inst.loaded.contains index then
    return some (inst.model.attributeOrNull inst.record name)
  if inst.raisesAt index then throw (.raiseOnAccess inst.model.table name)
  return none

end Instance

end LazyMapper
