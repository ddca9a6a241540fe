import LazyMapper.Proofs.Sequence
import LazyMapper.Proofs.Session.Changes
import LazyMapper.Proofs.Session.Typing
import LazyMapper.Proofs.Statement.Checking

/-!
# Histories

What a request does to its context comes apart into events: statements sent, entries made and
changed, instances given out. `Program.Allows` says which events a request may cause and when,
in particular where the rows come from that are written into entries. A history is a list of
events, each of them allowed when it happens.

Everything that holds of a context and is kept by allowed events holds after every request
(`History.keeps`); `LazyMapper.Proofs.Session.Steps` shows that requests have histories.
-/

set_option autoImplicit false

namespace LazyMapper

/-! ## Events -/

/-- A part of what a request does. -/
inductive Event where
  /-- Mappings were checked, and these type names are remembered. -/
  | checked (names : Configured)
  /-- `BEGIN` was sent. -/
  | began
  /-- `COMMIT` or `ROLLBACK` was sent. -/
  | ended (sql : String)
  | queried (statement : String × List Value) (reply : Outcome (List Row))
  | counted (tracker : Tracker)
  | met (model : Model)
  /-- A row made a new entry. -/
  | created (key : Key) (model : Model) (record : Record) (row : Row)
  | changed (key : Key) (change : EntryChange)
  | expiredAll
  | detachedAll
  /-- An instance took a copy of an entry. -/
  | issued (inst : Instance)

namespace Event

/-- The connection after a statement without rows, and the session in a transaction or not if the
statement succeeded. -/
def execute (sql : String) (inTransaction : Bool) (context : Context) : Context :=
  match context.connection.execute sql with
  | (.ok (), connection) =>
    { context with connection, session := { context.session with inTransaction } }
  | (.error _, connection) => { context with connection }

/-- The context after an event. -/
def apply (context : Context) : Event → Context
  | .checked names => { context with configured := names }
  | .began => execute "BEGIN" true context
  | .ended sql => execute sql false context
  | .queried statement _ =>
    { context with connection := (context.connection.query statement.1 statement.2).2 }
  | .counted tracker => { context with session := { context.session with tracker } }
  | .met model => { context with session := context.session.meet model }
  | .created key model record row =>
    let loaded := AttributeSet.ofList model.entity.fields.length (model.selectedBy row)
    { context with
      session := context.session.withEntry key (.fresh model record loaded context.nextHandle)
      nextHandle := context.nextHandle + 1 }
  | .changed key change =>
    match context.session.identities.find? key with
    | some entry =>
      { context with session := context.session.withEntry key (change.apply entry) }
    | none => context
  | .expiredAll => { context with session := context.session.expireAll }
  | .detachedAll => { context with session := context.session.expungeAll }
  | .issued _ => context

theorem apply_changed {context : Context} {key : Key} {entry : Entry}
    (there : context.session.identities.find? key = some entry) (change : EntryChange) :
    apply context (.changed key change) =
      { context with session := context.session.withEntry key (change.apply entry) } := by
  rw [apply, there]

@[simp] theorem config_execute (sql : String) (inTransaction : Bool) (context : Context) :
    (execute sql inTransaction context).session.config = context.session.config := by
  unfold execute
  split <;> rfl

@[simp] theorem identities_execute (sql : String) (inTransaction : Bool) (context : Context) :
    (execute sql inTransaction context).session.identities = context.session.identities := by
  unfold execute
  split <;> rfl

@[simp] theorem configured_execute (sql : String) (inTransaction : Bool) (context : Context) :
    (execute sql inTransaction context).configured = context.configured := by
  unfold execute
  split <;> rfl

/-- The settings of a session never change. -/
@[simp] theorem apply_config (context : Context) (event : Event) :
    (event.apply context).session.config = context.session.config := by
  cases event with
  | began | ended => exact config_execute _ _ context
  | met model =>
      simp only [apply, Session.meet]
      split <;> rfl
  | changed key change =>
      simp only [apply]
      split <;> rfl
  | checked | queried | counted | created | expiredAll | detachedAll | issued => rfl

end Event

/-! ## What requests may cause -/

/-- A query for columns of one table, under their own names. -/
structure Sql.Query.Selects (query : Sql.Query) (table : String) (columns : List String) :
    Prop where
  items : query.items = columns.map .plain
  tables : query.tables = [table]

/-- What is merged of a row for the models that a request loads: the row for a single one, for
several the part of the row that has the label of the model. -/
def Row.partsFor (row : Row) : List Model → List (Model × Row)
  | [model] => [(model, row)]
  | models => models.map fun model => (model, row.stripLabel (Sql.SelectItem.label model.table))

/-- The row was answered to the query of the request and belongs to the model. A row of a single
model has the columns that a plan of the model loads with the row; one of two models is the part
of it with the model's label. -/
inductive Request.Delivers (request : Request) (dialect : Sql.Dialect) (past : List Event) :
    Model → Row → Prop where
  | row {model : Model} {plan : LoadPlan} {columns : List String} {query : Sql.Query}
      {rows : List Row} {row : Row} (loads : request.loaded = [model])
      (suits : plan.Suits model.entity) (selects : query.Selects model.table columns)
      (eager : plan.eagerColumns ⊆ columns)
      (answered : .queried (query.build dialect) (.ok rows) ∈ past) (member : row ∈ rows) :
      Delivers request dialect past model row
  | part {left right model : Model} {statement : String × List Value} {rows : List Row}
      {whole : Row} (loads : request.loaded = [left, right]) (which : model ∈ [left, right])
      (answered : .queried statement (.ok rows) ∈ past) (member : whole ∈ rows) :
      Delivers request dialect past model (whole.stripLabel (Sql.SelectItem.label model.table))

namespace Program

variable [Hashable Digest]

/-- The instance of a number is attached to the entry of a key. -/
structure Attaches (program : Program) (number : Nat) (inst : Instance) (key : Key)
    (entry : Entry) : Prop where
  held : program.instances[number]? = some inst
  key : inst.key = key
  handle : entry.handle = inst.handle
  state : entry.state ≠ .detached

/-- The rows were answered to the query for columns of the row behind an instance. -/
def AnsweredByKey (dialect : Sql.Dialect) (past : List Event) (inst : Instance) (entry : Entry)
    (columns : List String) (rows : List Row) : Prop :=
  .queried ((inst.plan.entity.queryByKey columns (inst.model.keyOf entry.record)).build dialect)
    (.ok rows) ∈ past

/-- The changes of the entry of a key that a request may cause. -/
inductive Writes (program : Program) (request : Request) (past : List Event) (session : Session)
    (key : Key) (entry : Entry) : EntryChange → Prop where
  | absorb {model : Model} {row : Row} {record : Record}
      (delivered : request.Delivers session.config.dialect past model row)
      (made : model.fromRow row = .ok record) (keyed : key = Key.ofRecord model record)
      (live : entry.state.isLive) :
      Writes program request past session key entry (.absorb model row)
  | fetch {number index : Nat} {name : String} {inst : Instance} {row : Row} {rows : List Row}
      (asked : request = .load number name) (attached : program.Attaches number inst key entry)
      (position : inst.plan.index? name = some index)
      (unloaded : entry.loaded.contains index = false)
      (answered : AnsweredByKey session.config.dialect past inst entry
        (inst.plan.columnsAt (inst.plan.fetchIndices index entry.loaded)) (row :: rows)) :
      Writes program request past session key entry
        (.fetch inst.model inst.plan (inst.plan.fetchIndices index entry.loaded) row)
  | refresh {number : Nat} {inst : Instance} {row : Row} {rows : List Row}
      (asked : request = .refresh number) (attached : program.Attaches number inst key entry)
      (answered : AnsweredByKey session.config.dialect past inst entry inst.plan.eagerColumns
        (row :: rows)) :
      Writes program request past session key entry (.refresh inst.model inst.plan row)
  | assign {number index : Nat} {name : String} {value : Value} {inst : Instance}
      (asked : request = .set number name value)
      (attached : program.Attaches number inst key entry)
      (position : inst.plan.index? name = some index)
      (free : (inst.plan.attributes[index]?).any PlannedAttribute.primaryKey = false) :
      Writes program request past session key entry (.assign inst.model index name value)
  | expire {number : Nat} {names : List String} {inst : Instance} {indices : List Nat}
      (asked : request = .expire number names)
      (attached : program.Attaches number inst key entry)
      (positions : names.mapM inst.index = .ok indices) (given : indices ≠ []) :
      Writes program request past session key entry
        (.expire indices (session.keyIndicesOf inst.model.table))
  | expireAll {number : Nat} {inst : Instance} (asked : request = .expire number [])
      (attached : program.Attaches number inst key entry) :
      Writes program request past session key entry
        (.expireAll (session.keyIndicesOf inst.model.table))
  | delete {number : Nat} {inst : Instance} {columns : List String}
      (asked : request = .refresh number ∨ ∃ name, request = .load number name)
      (attached : program.Attaches number inst key entry)
      (answered : AnsweredByKey session.config.dialect past inst entry columns []) :
      Writes program request past session key entry .delete
  | detach {number : Nat} {inst : Instance} (asked : request = .expunge number)
      (attached : program.Attaches number inst key entry) :
      Writes program request past session key entry .detach

/-- Where an instance that a request gives out comes from: it is loaded with a plan of its model,
whose mapping was checked, or it is one that the program holds. -/
inductive Issues (program : Program) (request : Request) (configured : Configured)
    (inst : Instance) : Prop where
  | loaded (loads : inst.model ∈ request.loaded)
      (checked : inst.model.entity.typeName ∈ configured)
      (suits : inst.plan.Suits inst.model.entity)
      (named : inst.key.typeName = inst.model.entity.typeName)
  | kept {number : Nat} {old : Instance} (held : program.instances[number]? = some old)
      (key : inst.key = old.key) (model : inst.model = old.model) (plan : inst.plan = old.plan)

/-- The events that a request may cause. -/
inductive Allows (models : String → Model) (program : Program) (request : Request)
    (past : List Event) (context : Context) : Event → Prop where
  | checked {names : Configured} (learns : Learns (Entity.Typed models) context.configured names) :
      Allows models program request past context (.checked names)
  | began (idle : context.session.inTransaction = false) :
      Allows models program request past context .began
  | ended {sql : String} (active : context.session.inTransaction = true)
      (asked : request = .commit ∧ sql = "COMMIT" ∨ request = .rollback ∧ sql = "ROLLBACK") :
      Allows models program request past context (.ended sql)
  | queried (statement : String × List Value) :
      Allows models program request past context
        (.queried statement (context.connection.query statement.1 statement.2).1)
  | counted (tracker : Tracker) : Allows models program request past context (.counted tracker)
  | met {model : Model}
      (which : model ∈ request.loaded ∨ ∃ inst ∈ program.instances, inst.model = model) :
      Allows models program request past context (.met model)
  | created {key : Key} {model : Model} {record : Record} {row : Row}
      (delivered : request.Delivers context.session.config.dialect past model row)
      (loads : model ∈ request.loaded) (checked : model.entity.typeName ∈ context.configured)
      (met : (context.session.keyIndices.lookup model.table).isSome)
      (made : model.fromRow row = .ok record) (keyed : key = Key.ofRecord model record)
      (absent : (context.session.identities.find? key).filter (·.state.isLive) = none) :
      Allows models program request past context (.created key model record row)
  | changed {key : Key} {entry : Entry} {change : EntryChange}
      (there : context.session.identities.find? key = some entry)
      (writes : program.Writes request past context.session key entry change) :
      Allows models program request past context (.changed key change)
  | expiredAll (asked : request = .expireAll ∨ request = .rollback ∨
        request = .commit ∧ context.session.config.expireOnCommit = true) :
      Allows models program request past context .expiredAll
  | detachedAll (asked : request = .expungeAll) :
      Allows models program request past context .detachedAll
  | issued {inst : Instance} {entry : Entry}
      (there : context.session.identities.find? inst.key = some entry)
      (copy : inst = .ofEntry inst.model inst.key inst.plan entry)
      (issues : program.Issues request context.configured inst) :
      Allows models program request past context (.issued inst)

end Program

/-! ## Histories -/

/-- A list of events between two contexts, each of them allowed when it happens. `past` holds the
events before. -/
inductive History (allowed : List Event → Context → Event → Prop) :
    List Event → Context → List Event → Context → Prop where
  | nil {past : List Event} {context : Context} : History allowed past context [] context
  | cons {past events : List Event} {context after : Context} {event : Event}
      (here : allowed past context event)
      (later : History allowed (past ++ [event]) (event.apply context) events after) :
      History allowed past context (event :: events) after

namespace History

variable {allowed : List Event → Context → Event → Prop} {past events more : List Event}
  {context middle after : Context} {event : Event}

theorem single (here : allowed past context event) :
    History allowed past context [event] (event.apply context) :=
  .cons here .nil

theorem append (front : History allowed past context events middle)
    (back : History allowed (past ++ events) middle more after) :
    History allowed past context (events ++ more) after := by
  induction front with
  | nil => rwa [List.append_nil] at back
  | cons here _ ih =>
      refine .cons here (ih ?_)
      rwa [List.append_assoc]

/-- A history is cut at one of its events. -/
theorem exists_of_mem (history : History allowed past context events after)
    (member : event ∈ events) :
    ∃ front back middle, events = front ++ event :: back ∧
      History allowed past context front middle ∧ allowed (past ++ front) middle event ∧
      History allowed (past ++ front ++ [event]) (event.apply middle) back after := by
  induction history with
  | nil => cases member
  | @cons past events context after first here later ih =>
      rcases List.mem_cons.mp member with rfl | member
      · refine ⟨[], events, context, rfl, .nil, ?_, ?_⟩
        · rwa [List.append_nil]
        · rwa [List.append_nil]
      · obtain ⟨front, back, middle, rfl, before, allowed, behind⟩ := ih member
        refine ⟨first :: front, back, middle, rfl, .cons here before, ?_, ?_⟩
        · rwa [List.append_assoc] at allowed
        · rwa [List.append_assoc past] at behind

/-- **What allowed events keep is kept by a history.** `good` is what the events themselves are
known to be. -/
theorem keeps (good : Event → Prop) (holds : Context → Prop)
    (history : History allowed past context events after)
    (all : ∀ event ∈ past ++ events, good event) (start : holds context)
    (step : ∀ {past context event}, allowed past context event → (∀ event ∈ past, good event) →
      good event → holds context → holds (event.apply context)) : holds after := by
  induction history with
  | nil => exact start
  | cons here later ih =>
      refine ih (fun event member => all event ?_) ?_
      · rwa [List.append_assoc] at member
      · refine step here (fun event member => all event ?_) (all _ ?_) start
        · exact List.mem_append_left _ member
        · exact List.mem_append_right _ List.mem_cons_self

end History

/-! ## Actions with a history -/

namespace Action

/-- An action run in a context, with events behind it, adds a history to these, whether it
succeeds or not. A result is related by `post` to all events by then and to the context. -/
def Follows {α : Type} (allowed : List Event → Context → Event → Prop) (action : Action α)
    (past : List Event) (context : Context) (post : α → List Event → Context → Prop) : Prop :=
  Ends action context
    (fun result after => ∃ events, History allowed past context events after ∧
      post result (past ++ events) after)
    fun _ after => ∃ events, History allowed past context events after

namespace Follows

variable {α β : Type} {allowed : List Event → Context → Event → Prop} {action : Action α}
  {past : List Event} {context : Context} {post : α → List Event → Context → Prop}

theorem pure {result : α} (holds : post result past context) :
    Follows allowed (Pure.pure result) past context post :=
  ⟨[], .nil, by rwa [List.append_nil]⟩

theorem fail {error : Error} : Follows allowed (Action.fail error) past context post :=
  ⟨[], .nil⟩

theorem fail_bind {error : Error} {next : β → Action α} :
    Follows allowed (Action.fail error >>= next) past context post :=
  ⟨[], .nil⟩

/-- Returning an instance, which is issued by that. -/
theorem issue (inst : Instance) {result : α} (here : allowed past context (.issued inst))
    (holds : post result (past ++ [.issued inst]) context) :
    Follows allowed (Pure.pure result) past context post :=
  ⟨[.issued inst], .single here, holds⟩

theorem ofExcept {result : Except Error α}
    (holds : ∀ value, result = .ok value → post value past context) :
    Follows allowed (Action.ofExcept result) past context post := by
  cases result with
  | ok value => exact .pure (holds value rfl)
  | error error => exact .fail

theorem bind {next : α → Action β} {Q : α → List Event → Context → Prop}
    {after : β → List Event → Context → Prop} (follows : Follows allowed action past context Q)
    (continued : ∀ result past' context', Q result past' context' →
      Follows allowed (next result) past' context' after) :
    Follows allowed (action >>= next) past context after := by
  refine ends_bind.mpr (Ends.mono follows ?_ fun _ _ history => history)
  rintro result middle ⟨events, history, holds⟩
  refine Ends.mono (continued result _ middle holds) ?_ ?_
  · rintro _ _ ⟨more, later, done⟩
    exact ⟨events ++ more, history.append later, by rwa [List.append_assoc] at done⟩
  · rintro _ _ ⟨more, later⟩
    exact ⟨events ++ more, history.append later⟩

theorem mono {post' : α → List Event → Context → Prop}
    (follows : Follows allowed action past context post)
    (implied : ∀ result past' context', post result past' context' →
      post' result past' context') :
    Follows allowed action past context post' := by
  refine Ends.mono follows ?_ fun _ _ history => history
  rintro result after ⟨events, history, holds⟩
  exact ⟨events, history, implied result _ after holds⟩

/-- Reading the session. -/
theorem session {next : Session → Action β} {after : β → List Event → Context → Prop}
    (continued : Follows allowed (next context.session) past context after) :
    Follows allowed (Action.session >>= next) past context after :=
  Follows.bind (Q := fun result past' context' =>
      result = context.session ∧ past' = past ∧ context' = context)
    ⟨[], .nil, rfl, List.append_nil past, rfl⟩
    (by rintro _ _ _ ⟨rfl, rfl, rfl⟩; exact continued)

/-- An event that changes the session alone. -/
theorem modifySession {change : Session → Session} {event : Event}
    {post : Unit → List Event → Context → Prop} (here : allowed past context event)
    (same : event.apply context = { context with session := change context.session })
    (holds : post () (past ++ [event]) (event.apply context)) :
    Follows allowed (Action.modifySession change) past context post := by
  refine ends_modify.mpr ⟨[event], ?_, ?_⟩
  · rw [← same]
    exact .single here
  · rw [← same]
    exact holds

/-- An action for every item of a list, each of which keeps an invariant and gives a result of
which something holds that later events do not change. -/
theorem mapM {items : List α} {step : α → Action β} (invariant : List Event → Context → Prop)
    (good : β → List Event → Prop)
    (lasting : ∀ result past more, good result past → good result (past ++ more))
    (each : ∀ item ∈ items, ∀ past context, invariant past context →
      Follows allowed (step item) past context fun result past' context' =>
        past <+: past' ∧ invariant past' context' ∧ good result past')
    (start : invariant past context) :
    Follows allowed (items.mapM step) past context fun results past' context' =>
      invariant past' context' ∧ ∀ result ∈ results, good result past' := by
  have general : Follows allowed (items.mapM step) past context fun results past' context' =>
      past <+: past' ∧ invariant past' context' ∧ ∀ result ∈ results, good result past' := by
    induction items generalizing past context with
    | nil =>
        rw [List.mapM_nil]
        exact .pure ⟨List.prefix_refl past, start, by simp⟩
    | cons item rest ih =>
        rw [List.mapM_cons]
        refine (each item List.mem_cons_self past context start).bind ?_
        rintro first past' context' ⟨grown, holds, here⟩
        refine (ih (fun other member => each other (List.mem_cons_of_mem _ member)) holds).bind ?_
        rintro others past'' context'' ⟨⟨more, rfl⟩, holds, there⟩
        refine .pure ⟨grown.trans (List.prefix_append _ _), holds, ?_⟩
        intro result member
        rcases List.mem_cons.mp member with rfl | member
        · exact lasting _ _ _ here
        · exact there result member
  exact general.mono fun _ _ _ holds => holds.2

end Follows

end Action

end LazyMapper
