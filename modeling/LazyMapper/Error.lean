import LazyMapper.Value.Text

/-!
# Errors

An error names its cause; `Error.message` words it. Four families of causes come from this
library: a loader option that cannot be resolved (`LoaderFault`), a mapping or a conversion that
fails (`MappingFault`), a request that does not fit its statement or model (`UsageFault`), and
the three conditions of an instance that keep an attribute from being read. `Error.custom` is an
error that the connection reports.

Loader faults are sorted into six kinds (`LoaderFault.Kind`). An application may report loader
and mapping faults of its own, in its own words.
-/

set_option autoImplicit false

namespace LazyMapper

/-! ## Loader options -/

/-- Why a loader option cannot be resolved. A `label` is the text of the option or path at
fault. -/
inductive LoaderFault where
  /-- A token of a path or attribute reference is neither a name nor, at the end, a star. -/
  | malformedToken (raw token : String)
  /-- A star among the attributes of a load-only option. -/
  | starInLoadOnly (attributes : List String)
  /-- The attributes of a load-only option lie at different paths. -/
  | mixedPaths (attributes : List String)
  /-- A nested option names a root entity. -/
  | nestedRoot (label : String)
  /-- The root entity of an option is not selected. -/
  | rootNotSelected (label table : String)
  /-- An option has neither a path nor anything to say. -/
  | emptyOption (label : String)
  /-- An option about all attributes does not tell which of several entities it is about. -/
  | unqualified (label : String) (tables : List String)
  /-- No selected entity has the attribute. -/
  | noAttributeOwner (label name : String)
  /-- Several selected entities have the attribute. -/
  | manyAttributeOwners (label name : String) (tables : List String)
  /-- No selected entity has the deferred group. -/
  | noGroupOwner (label group : String)
  /-- Several selected entities have the deferred group. -/
  | manyGroupOwners (label group : String) (tables : List String)
  /-- No selected entity has the relationship. -/
  | noRelationshipOwner (label relationship : String)
  /-- Several selected entities have the relationship. -/
  | manyRelationshipOwners (label relationship : String) (tables : List String)
  /-- The entity has no relationship of the name. -/
  | unknownRelationship (label table relationship : String)
  /-- The relationship does not say which model it leads to. -/
  | undeclaredTarget (label table relationship : String)
  /-- The entity has no attribute of the name. -/
  | unknownAttribute (table name : String)
  /-- The entity has no deferred group of the name. -/
  | unknownGroup (table group : String)
  /-- A related load without a path. -/
  | noPath
  /-- The last relationship of a path belongs to another entity than the parents'. -/
  | otherParent (label relationship owner parent : String)
  /-- The last relationship of a path leads to another table than the related entity's. -/
  | otherTarget (label parent relationship related target : String)
  /-- An ambiguous target, reported in the application's words. -/
  | ambiguousTarget (detail : String)
  /-- An unknown attribute, reported in the application's words. -/
  | noAttribute (detail : String)
  /-- An unknown group, reported in the application's words. -/
  | noGroup (detail : String)
  /-- An unknown relationship, reported in the application's words. -/
  | noRelationship (detail : String)
  /-- An invalid path, reported in the application's words. -/
  | invalidPath (detail : String)
  /-- An invalid option, reported in the application's words. -/
  | invalidOption (detail : String)
deriving DecidableEq, Repr

namespace LoaderFault

/-- The kinds of loader faults. -/
inductive Kind where
  | ambiguousTarget
  | unknownAttribute
  | unknownGroup
  | unknownRelationship
  | invalidPath
  | invalidOption
deriving DecidableEq, Repr

/-- The name of a kind in messages. -/
def Kind.name : Kind → String
  | .ambiguousTarget => "ambiguous target"
  | .unknownAttribute => "unknown attribute"
  | .unknownGroup => "unknown group"
  | .unknownRelationship => "unknown relationship"
  | .invalidPath => "invalid path"
  | .invalidOption => "invalid option"

/-- The fault of a kind, reported in the application's words. -/
def reported (kind : Kind) (detail : String) : LoaderFault :=
  match kind with
  | .ambiguousTarget => .ambiguousTarget detail
  | .unknownAttribute => .noAttribute detail
  | .unknownGroup => .noGroup detail
  | .unknownRelationship => .noRelationship detail
  | .invalidPath => .invalidPath detail
  | .invalidOption => .invalidOption detail

/-- The kind of a fault. -/
def kind : LoaderFault → Kind
  | .unqualified .. | .manyAttributeOwners .. | .manyGroupOwners ..
  | .manyRelationshipOwners .. | .ambiguousTarget .. => .ambiguousTarget
  | .noAttributeOwner .. | .unknownAttribute .. | .noAttribute .. => .unknownAttribute
  | .noGroupOwner .. | .unknownGroup .. | .noGroup .. => .unknownGroup
  | .noRelationshipOwner .. | .unknownRelationship .. | .noRelationship .. =>
    .unknownRelationship
  | .malformedToken .. | .starInLoadOnly .. | .noPath | .invalidPath .. => .invalidPath
  | .mixedPaths .. | .nestedRoot .. | .rootNotSelected .. | .emptyOption ..
  | .undeclaredTarget .. | .otherParent .. | .otherTarget .. | .invalidOption .. =>
    .invalidOption

/-- A list in a message. -/
def listed (names : List String) : String := ", ".intercalate names

/-- No selected entity has what an option asks for. -/
def nobody (label what : String) : String :=
  s!"{label}: no entity in the statement has {what}"

/-- Several selected entities have what an option asks for. -/
def several (label what : String) (tables : List String) : String :=
  s!"{label}: {what} matches several entities ({listed tables}); " ++
    "qualify the option with Load::of"

/-- The wording of a fault, without its kind. -/
def detail : LoaderFault → String
  | .malformedToken raw token =>
    s!"'{raw}': '{token}' is not a valid attribute or relationship name"
  | .starInLoadOnly attributes => s!"load_only({listed attributes}): '*' is not allowed here"
  | .mixedPaths attributes =>
    s!"load_only({listed attributes}): all attributes must share one relationship path"
  | .nestedRoot label => s!"{label}: nested options cannot name their own root entity"
  | .rootNotSelected label table =>
    s!"{label}: entity '{table}' is not selected by the statement"
  | .emptyOption label => s!"{label}: empty option"
  | .unqualified label tables =>
    s!"{label}: wildcard and exclusionary options need an explicit entity or path " ++
      s!"when the statement selects several entities ({listed tables})"
  | .noAttributeOwner label name => nobody label s!"attribute '{name}'"
  | .manyAttributeOwners label name tables =>
    several label s!"attribute '{name}'" tables
  | .noGroupOwner label group => nobody label s!"deferred group '{group}'"
  | .manyGroupOwners label group tables => several label s!"deferred group '{group}'" tables
  | .noRelationshipOwner label relationship => nobody label s!"relationship '{relationship}'"
  | .manyRelationshipOwners label relationship tables =>
    several label s!"relationship '{relationship}'" tables
  | .unknownRelationship label table relationship =>
    s!"{label}: '{table}' has no relationship '{relationship}'"
  | .undeclaredTarget label table relationship =>
    s!"{label}: '{table}.{relationship}' does not declare its target model"
  | .unknownAttribute table name => s!"'{table}' has no attribute '{name}'"
  | .unknownGroup table group => s!"'{table}' has no deferred group '{group}'"
  | .noPath => "a related load needs a relationship path"
  | .otherParent label relationship owner parent =>
    s!"{label}: '{relationship}' is reached from '{owner}', not from '{parent}'"
  | .otherTarget label parent relationship related target =>
    s!"{label}: '{parent}.{relationship}' relates to '{related}', not '{target}'"
  | .ambiguousTarget detail | .noAttribute detail | .noGroup detail | .noRelationship detail
  | .invalidPath detail | .invalidOption detail => detail

/-- The wording of a fault, after the name of its kind. -/
def message (fault : LoaderFault) : String := s!"{fault.kind.name}: {fault.detail}"

end LoaderFault

/-! ## Mappings and conversions -/

/-- Why an entity's mapping is refused, or a value does not become an attribute. -/
inductive MappingFault where
  /-- Two attributes have one name. -/
  | mappedTwice (table name : String)
  /-- A deferred group without a name. -/
  | namelessGroup (table name : String)
  /-- No attribute is in the primary key. -/
  | noPrimaryKey (table : String)
  /-- A primary key attribute is not mapped. -/
  | unmappedKey (table name : String)
  /-- A primary key attribute is not loaded with the row. -/
  | deferredKey (table name : String)
  /-- A relationship keyed on the parent has no local key. -/
  | noLocalKey (table relationship : String)
  /-- The local key of a relationship is not mapped. -/
  | unmappedLocalKey (table relationship key : String)
  /-- A relationship keyed on the related entity has no remote key. -/
  | noRemoteKey (table relationship : String)
  /-- A row lacks a primary key attribute. -/
  | missingFromRow (table name : String)
  /-- The model has no attribute of the name. -/
  | noAttribute (table name : String)
  /-- The same, found while the keys of a query are put together. -/
  | noKeyAttribute (table name : String)
  /-- The value does not fit the attribute. -/
  | badValue (table name display : String)
  /-- A relationship has no pair of keys to join by. -/
  | noJoinKeys (table relationship : String)
  /-- A fault reported in the application's words. -/
  | reported (detail : String)
deriving DecidableEq, Repr

namespace MappingFault

/-- The wording of a fault. -/
def detail : MappingFault → String
  | .mappedTwice table name => s!"{table}: attribute '{name}' is mapped twice"
  | .namelessGroup table name =>
    s!"{table}.{name}: deferred group name must not be empty"
  | .noPrimaryKey table => s!"{table}: mapped entity has no primary key"
  | .unmappedKey table name =>
    s!"{table}: primary key attribute '{name}' is not a mapped field"
  | .deferredKey table name =>
    s!"{table}.{name}: primary key attributes cannot be deferred"
  | .noLocalKey table relationship => s!"{table}.{relationship}: relationship needs a local key"
  | .unmappedLocalKey table relationship key =>
    s!"{table}.{relationship}: local key '{key}' is not a mapped field"
  | .noRemoteKey table relationship =>
    s!"{table}.{relationship}: relationship needs a remote key"
  | .missingFromRow table name => s!"{table}.{name} missing from row"
  | .noAttribute table name => s!"{table} has no attribute '{name}'"
  | .noKeyAttribute table name => s!"'{table}' has no attribute '{name}'"
  | .badValue table name display => s!"{table}.{name}: bad value {display}"
  | .noJoinKeys table relationship => s!"'{table}.{relationship}' has no usable join keys"
  | .reported detail => detail

end MappingFault

/-! ## Requests to a session -/

/-- Why a request does not fit its statement or model. -/
inductive UsageFault where
  /-- A statement over several entities where one is expected. -/
  | severalEntities (count : Nat)
  /-- The statement does not select the model asked for. -/
  | notSelected (table : String)
  /-- The statement does not select exactly the two models asked for. -/
  | notThePair (left right : String)
  /-- A key of the wrong length. -/
  | keyLength (table : String) (expected actual : Nat)
  /-- A write to a primary key attribute. -/
  | keyReassigned (table name : String)
  /-- The parent attribute that a relationship is keyed on is not loaded. -/
  | parentKeyUnloaded (table name path : String)
deriving DecidableEq, Repr

namespace UsageFault

/-- The wording of a fault. -/
def detail : UsageFault → String
  | .severalEntities count => s!"statement selects {count} entities; use all_pairs"
  | .notSelected table => s!"statement does not select '{table}'"
  | .notThePair left right => s!"statement does not select exactly ('{left}', '{right}')"
  | .keyLength table expected actual =>
    s!"'{table}' has a {expected}-column primary key, got {actual} values"
  | .keyReassigned table name =>
    s!"'{table}.{name}' is part of the primary key and cannot be reassigned"
  | .parentKeyUnloaded table name path =>
    s!"'{table}.{name}' is not loaded; undefer it to load '{path}'"

end UsageFault

/-! ## All errors -/

/-- An error of the library or of the connection. -/
inductive Error where
  | loader (fault : LoaderFault)
  /-- The attribute must not be fetched on access. -/
  | raiseOnAccess (table name : String)
  /-- The instance is not attached to the session that was asked. -/
  | detached (table : String)
  /-- The row behind the instance is gone. -/
  | objectDeleted (table key : String)
  | mapping (fault : MappingFault)
  | usage (fault : UsageFault)
  /-- An error that the connection reports. -/
  | custom (detail : String)
deriving DecidableEq, Repr

namespace Error

/-- The kind of a loader fault. -/
def loaderKind? : Error → Option LoaderFault.Kind
  | .loader fault => some fault.kind
  | _ => none

/-- The error says that an attribute must not be fetched on access. -/
def isRaiseOnAccess : Error → Bool
  | .raiseOnAccess .. => true
  | _ => false

/-- The wording of an error. -/
def message : Error → String
  | .loader fault => s!"loader option error: {fault.message}"
  | .raiseOnAccess table name =>
    s!"'{table}.{name}' is not available due to raiseload; " ++
      "undefer it in the statement options to load it"
  | .detached table =>
    s!"instance of '{table}' is not bound to this session; attribute load cannot proceed"
  | .objectDeleted table key => s!"instance '{table}' ({key}) has been deleted"
  | .mapping fault => s!"mapping error: {fault.detail}"
  | .usage fault => fault.detail
  | .custom detail => detail

end Error

end LazyMapper
