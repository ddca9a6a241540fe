import LazyMapper.Session.Config
import LazyMapper.Session.Entry
import LazyMapper.Session.Tracker

/-!
# The state of a session

A session has settings, knows whether it is in a transaction, keeps entries by key and counts
lazy loads. For every table it remembers the positions of the primary key attributes of the
first model of that table it met; expiring leaves the attributes at these positions loaded.

An instance is attached to a session when the entry under its key has its handle number and is
not detached.
-/

set_option autoImplicit false

namespace LazyMapper

/-- The entries of a session by key. -/
structure IdentityMap where
  entries : List (Key × Entry)

namespace IdentityMap

/-- No entries. -/
def empty : IdentityMap := ⟨[]⟩

/-- The entry of a key. -/
def find? (map : IdentityMap) (key : Key) : Option Entry := map.entries.lookup key

/-- The entries with one of them put in place of the entry of its key, if there is one. -/
def insertInto (key : Key) (entry : Entry) : List (Key × Entry) → List (Key × Entry)
  | [] => [(key, entry)]
  | (other, found) :: rest =>
    if key = other then (key, entry) :: rest else (other, found) :: insertInto key entry rest

/-- The map with an entry for a key. -/
def insert (map : IdentityMap) (key : Key) (entry : Entry) : IdentityMap :=
  ⟨insertInto key entry map.entries⟩

/-- The map with every entry changed. -/
def mapEntries (map : IdentityMap) (change : Entry → Entry) : IdentityMap :=
  ⟨map.entries.map fun item => (item.1, change item.2)⟩

/-- The number of entries. -/
def size (map : IdentityMap) : Nat := map.entries.length

/-- The number of entries in a state. -/
def countState (map : IdentityMap) (state : EntryState) : Nat :=
  map.entries.countP fun item => item.2.state == state

end IdentityMap

/-- A session without its connection. -/
structure Session where
  config : Config
  inTransaction : Bool
  identities : IdentityMap
  /-- The positions of primary key attributes by table. -/
  keyIndices : List (String × List Nat)
  tracker : Tracker

/-- A summary of a session. -/
structure SessionSummary where
  tracked : Nat
  expired : Nat
  deleted : Nat
  detached : Nat
  lazyLoads : Nat
  inTransaction : Bool
deriving DecidableEq, Repr

namespace Session

/-- A session with the given settings that has done nothing yet. -/
def ofConfig (config : Config) : Session :=
  ⟨config, false, .empty, [], .ofThreshold config.lazyLoadThreshold⟩

/-- The summary of a session. -/
def summary (session : Session) : SessionSummary where
  tracked := session.identities.size
  expired := session.identities.countState .expired
  deleted := session.identities.countState .deleted
  detached := session.identities.countState .detached
  lazyLoads := session.tracker.stats.total
  inTransaction := session.inTransaction

/-! ## Entries -/

/-- The session with an entry for a key. -/
def withEntry (session : Session) (key : Key) (entry : Entry) : Session :=
  { session with identities := session.identities.insert key entry }

/-- The entry behind an instance, detached or not. -/
def entryOf? (session : Session) (inst : Instance) : Option Entry :=
  (session.identities.find? inst.key).filter (·.handle == inst.handle)

/-- The entry that an instance is attached to. -/
def attached? (session : Session) (inst : Instance) : Option Entry :=
  (session.entryOf? inst).filter (·.state != .detached)

/-- The entry that an instance is attached to. -/
def attached (session : Session) (inst : Instance) : Except Error Entry :=
  match session.attached? inst with
  | some entry => .ok entry
  | none => .error (.detached inst.model.table)

/-- The instance is attached to the session. -/
def contains (session : Session) (inst : Instance) : Bool := (session.attached? inst).isSome

/-- The state of the entry behind an instance. -/
def stateOf? (session : Session) (inst : Instance) : Option EntryState :=
  (session.entryOf? inst).map Entry.state

/-- The attribute is loaded in the entry behind an instance. -/
def isLoaded (session : Session) (inst : Instance) (name : String) : Bool :=
  (inst.plan.index? name).any fun index =>
    (session.entryOf? inst).any (·.loaded.contains index)

/-! ## Primary keys -/

/-- The positions of the primary key attributes of a table. -/
def keyIndicesOf (session : Session) (table : String) : List Nat :=
  (session.keyIndices.lookup table).getD []

/-- The session that has met a model. -/
def meet (session : Session) (model : Model) : Session :=
  if (session.keyIndices.lookup model.table).isSome then session
  else
    { session with
      keyIndices := session.keyIndices ++ [(model.table, model.entity.keyIndices)] }

/-! ## Expiring and detaching -/

/-- The session with every entry expired that is not detached. -/
def expireAll (session : Session) : Session :=
  { session with
    identities := session.identities.mapEntries fun entry =>
      if entry.state = .detached then entry
      else entry.expireAll (session.keyIndicesOf entry.model.table) }

/-- The session with the entry of an instance detached. -/
def expunge (session : Session) (inst : Instance) : Session :=
  match session.attached? inst with
  | some entry => session.withEntry inst.key { entry with state := .detached }
  | none => session

/-- The session with every entry detached. -/
def expungeAll (session : Session) : Session :=
  { session with
    identities := session.identities.mapEntries fun entry => { entry with state := .detached } }

end Session

end LazyMapper
