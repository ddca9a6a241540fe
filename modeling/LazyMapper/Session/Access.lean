import LazyMapper.Session.Action
import LazyMapper.Statement.Identity

/-!
# Reading and writing attributes

An attribute of an attached instance is read from its entry. When it is not loaded there, the
plan of the instance decides: access to it is an error, or it is fetched by primary key, with the
other attributes deferred under its group and with every attribute that the plan loads with the
row, as far as they are not loaded. What has been loaded stays until it is expired.

The functions that need a query come in two parts, `…Request` for what is decided before it and
`receive…` for what its rows do. Every function returns the instance as it leaves it, with a
result or an error.
-/

set_option autoImplicit false

namespace LazyMapper

namespace LoadPlan

/-- The positions of the attributes fetched on access to the one at `index`, in increasing
order. -/
def fetchIndices (plan : LoadPlan) (index : Nat) (loaded : AttributeSet) : List Nat :=
  let group :=
    match (plan.attributes[index]?).map PlannedAttribute.mode with
    | some (.deferred (some group)) => plan.groupMembers group
    | _ => [index]
  (List.range plan.attributes.length).filter fun position =>
    (group.contains position || plan.eagerIndices.contains position) &&
      !loaded.contains position

/-- The columns of the attributes at the given positions. -/
def columnsAt (plan : LoadPlan) (indices : List Nat) : List String :=
  (plan.attributesAt indices).map PlannedAttribute.column

/-- The attributes at the given positions with their values in a row. -/
def assignments (plan : LoadPlan) (row : Row) (indices : List Nat) : List (String × Value) :=
  (plan.attributesAt indices).map fun planned => (planned.name, row.valueOf planned.column)

end LoadPlan

/-! ## Reading -/

/-- What a read of an attribute comes to before anything is sent. -/
inductive Reading where
  /-- The attribute is loaded. -/
  | loaded (value : Value)
  /-- The attributes at the given positions are to be fetched. -/
  | fetch (index : Nat) (indices : List Nat) (key : List Value)

namespace Session

/-- The error of an instance whose row is gone. -/
def deletedError (inst : Instance) (key : List Value) : Error :=
  .objectDeleted inst.model.table (Value.displayKey key)

/-- Decides on a read of an attribute. The instance takes a new copy of its entry. -/
def readRequest (session : Session) (inst : Instance) (name : String) :
    Except Error Reading × Instance :=
  match inst.index name, session.attached inst with
  | .error error, _ => (.error error, inst)
  | .ok _, .error error => (.error error, inst)
  | .ok index, .ok entry =>
    let inst := inst.sync entry
    let key := inst.primaryKey
    let reading :=
      if entry.state = .deleted then .error (deletedError inst key)
      else if entry.loaded.contains index then
        .ok (.loaded (inst.model.attributeOrNull inst.record name))
      else if inst.raisesAt index then .error (.raiseOnAccess inst.model.table name)
      else .ok (.fetch index (inst.plan.fetchIndices index entry.loaded) key)
    (reading, inst)

/-- The session in which the row behind an instance is gone. -/
def markDeleted (session : Session) (inst : Instance) (entry : Entry) : Session :=
  session.withEntry inst.key { entry with state := .deleted }

/-- The session that has counted the load of the attribute at a position, if the plan of the
instance defers it. -/
def countLoad (session : Session) (inst : Instance) (index : Nat) : Session :=
  match inst.plan.attributes[index]? with
  | some ⟨name, _, .deferred _, _⟩ =>
    { session with tracker := (session.tracker.record inst.model.table name).2 }
  | _ => session

/-- Takes the fetched attributes from the first of the rows. -/
def receiveFetched (session : Session) (inst : Instance) (name : String) (index : Nat)
    (indices : List Nat) (key : List Value) (rows : List Row) :
    Except Error Value × Instance × Session :=
  match session.attached inst, rows with
  | .error error, _ => (.error error, inst, session)
  | .ok entry, [] => (.error (deletedError inst key), inst, session.markDeleted inst entry)
  | .ok entry, row :: _ =>
    match inst.model.assignAll entry.record (inst.plan.assignments row indices) with
    | (record, .error error) =>
      (.error error, inst, session.withEntry inst.key { entry with record })
    | (record, .ok ()) =>
      let entry :=
        { entry with
          record
          loaded := entry.loaded.insertAll indices
          state := entry.state.reload }
      let inst := inst.sync entry
      (.ok (inst.model.attributeOrNull record name), inst,
        (session.withEntry inst.key entry).countLoad inst index)

/-! ## Writing -/

/-- Writes an attribute. It counts as loaded and is never fetched afterwards. -/
def setAttribute (session : Session) (inst : Instance) (name : String) (value : Value) :
    Except Error Unit × Instance × Session :=
  match inst.index name with
  | .error error => (.error error, inst, session)
  | .ok index =>
    if (inst.plan.attributes[index]?).any PlannedAttribute.primaryKey then
      (.error (.usage (.keyReassigned inst.model.table name)), inst, session)
    else
      match session.attached inst with
      | .error error => (.error error, inst, session)
      | .ok entry =>
        match inst.model.setAttribute entry.record name value with
        | .error error => (.error error, inst, session)
        | .ok record =>
          let entry := { entry with record, loaded := entry.loaded.insert index }
          (.ok (), inst.sync entry, session.withEntry inst.key entry)

/-! ## Expiring -/

/-- Makes attributes not loaded, all of them if none is named. Attributes at the positions of the
primary key stay loaded. -/
def expire (session : Session) (inst : Instance) (names : List String) :
    Except Error Unit × Instance × Session :=
  match names.mapM inst.index with
  | .error error => (.error error, inst, session)
  | .ok indices =>
    let session := session.meet inst.model
    let keyIndices := session.keyIndicesOf inst.model.table
    match session.attached inst with
    | .error error => (.error error, inst, session)
    | .ok entry =>
      let entry :=
        if indices.isEmpty then entry.expireAll keyIndices else entry.expire indices keyIndices
      (.ok (), inst.sync entry, session.withEntry inst.key entry)

/-! ## Refreshing -/

/-- The key of an attached instance. -/
def refreshRequest (session : Session) (inst : Instance) : Except Error (List Value) :=
  (session.attached inst).map fun entry => inst.model.keyOf entry.record

/-- Takes the attributes that the plan loads with the row from the first of the rows. The others
are not loaded afterwards. -/
def receiveRefreshed (session : Session) (inst : Instance) (key : List Value)
    (rows : List Row) : Except Error Unit × Instance × Session :=
  match session.attached inst, rows with
  | .error error, _ => (.error error, inst, session)
  | .ok entry, [] => (.error (deletedError inst key), inst, session.markDeleted inst entry)
  | .ok entry, row :: _ =>
    let indices := inst.plan.eagerIndices
    match inst.model.assignAll entry.record (inst.plan.assignments row indices) with
    | (record, .error error) =>
      (.error error, inst, session.withEntry inst.key { entry with record })
    | (record, .ok ()) =>
      let entry :=
        { entry with
          record
          loaded := .ofList inst.plan.attributes.length indices
          version := entry.version + 1
          state := .persistent }
      (.ok (), inst.sync entry, session.withEntry inst.key entry)

end Session

/-! ## As actions -/

namespace Action

/-- Queries columns of the row with the key of an instance. -/
def queryByKey (inst : Instance) (columns : List String) (key : List Value) :
    Action (List Row) := do
  let dialect := (← session).config.dialect
  query ((inst.plan.entity.queryByKey columns key).build dialect)

/-- The result of an action on an instance: how it ended, and the instance as it left it. -/
abbrev OnInstance (α : Type) := Context → Outcome α × Instance × Context

/-- The outcome of a computation without effects. -/
def outcome {α : Type} : Except Error α → Outcome α
  | .ok result => .ok result
  | .error error => .error (.failed error)

/-- A step that sends nothing. -/
def onInstance {α : Type} (step : Session → Except Error α × Instance × Session) :
    OnInstance α := fun context =>
  let (result, inst, session) := step context.session
  (outcome result, inst, { context with session })

/-- Sends a query by the key of an instance, and lets a step receive the rows. -/
def afterQuery {α : Type} (inst : Instance) (columns : List String) (key : List Value)
    (step : List Row → Session → Except Error α × Instance × Session) : OnInstance α :=
  fun context =>
    match (queryByKey inst columns key).run.run context with
    | (.error interruption, context) => (.error interruption, inst, context)
    | (.ok rows, context) => onInstance (step rows) context

/-- Reads an attribute, and fetches it if it is not loaded. -/
def loadAttribute (inst : Instance) (name : String) : OnInstance Value := fun context =>
  match context.session.readRequest inst name with
  | (.error error, inst) => (.error (.failed error), inst, context)
  | (.ok (.loaded value), inst) => (.ok value, inst, context)
  | (.ok (.fetch index indices key), inst) =>
    afterQuery inst (inst.plan.columnsAt indices) key
      (fun rows session => session.receiveFetched inst name index indices key rows) context

/-- Loads the attributes of an instance again that its plan loads with the row. -/
def refresh (inst : Instance) : OnInstance Unit := fun context =>
  match context.session.refreshRequest inst with
  | .error error => (.error (.failed error), inst, context)
  | .ok key =>
    afterQuery inst inst.plan.eagerColumns key
      (fun rows session => session.receiveRefreshed inst key rows) context

end Action

end LazyMapper
