import LazyMapper.Proofs.Session.Making
import Mathlib.Data.List.Nodup

/-!
# One query for an attribute

A read of an attribute that is not loaded sends one query by key
(`Program.Reaches.load_fetches_once`). It asks for the attributes that go with the one that is read
(`LoadPlan.FetchesWith`) as far as they are not loaded, and what it is answered goes into the entry
of the instance and nowhere else: the row fills these attributes (`Entry.Fetched`), and no row
marks the entry as deleted.

The way there is a run equation for each part of the read: the query with the `BEGIN` in front of
it (`Action.query_run`), the decision before it and the rows behind it
(`Action.loadAttribute_run`).
-/

set_option autoImplicit false

namespace LazyMapper

/-! ## What is fetched together -/

namespace LoadPlan

variable {plan : LoadPlan} {index other : Nat}

/-- The mode of the attribute at a position. -/
def modeAt? (plan : LoadPlan) (index : Nat) : Option ResolvedMode :=
  (plan.attributes[index]?).map PlannedAttribute.mode

/-- The attribute at a position is loaded on access. -/
def defersAt (plan : LoadPlan) (index : Nat) : Bool :=
  match plan.modeAt? index with
  | some (.deferred _) => true
  | _ => false

/-- Access to the attribute at a position asks for the other one: it is the same, or one that the
plan loads with the row, or both are deferred under one name. -/
def FetchesWith (plan : LoadPlan) (index other : Nat) : Prop :=
  other = index ∨ plan.modeAt? other = some .eager ∨
    ∃ group, plan.modeAt? index = some (.deferred (some group)) ∧
      plan.modeAt? other = some (.deferred (some group))

theorem mem_indicesWhere {condition : PlannedAttribute → Bool} :
    other ∈ plan.indicesWhere condition ↔
      ∃ planned, plan.attributes[other]? = some planned ∧ condition planned := by
  rw [indicesWhere, List.mem_filter, List.mem_range, Option.any_eq_true, and_iff_right_iff_imp]
  rintro ⟨planned, here, -⟩
  exact (List.getElem?_eq_some_iff.mp here).1

theorem mem_eagerIndices : other ∈ plan.eagerIndices ↔ plan.modeAt? other = some .eager := by
  rw [eagerIndices, mem_indicesWhere, modeAt?, Option.map_eq_some_iff]
  refine exists_congr fun planned => and_congr_right fun _ => ?_
  cases planned.mode <;> simp [ResolvedMode.isEager]

theorem mem_groupMembers {group : String} :
    other ∈ plan.groupMembers group ↔ plan.modeAt? other = some (.deferred (some group)) := by
  rw [groupMembers, mem_indicesWhere, modeAt?, Option.map_eq_some_iff]
  exact exists_congr fun planned => and_congr_right fun _ => beq_iff_eq

/-- **What is fetched on access to an attribute** is what goes with it and is not loaded. -/
theorem mem_fetchIndices_iff {loaded : AttributeSet} :
    other ∈ plan.fetchIndices index loaded ↔
      other < plan.attributes.length ∧ other ∉ loaded ∧ plan.FetchesWith index other := by
  have filtered {group : List Nat}
      (asked : other ∈ group ∨ other ∈ plan.eagerIndices ↔ plan.FetchesWith index other) :
      (other ∈ (List.range plan.attributes.length).filter fun position =>
          (group.contains position || plan.eagerIndices.contains position) &&
            !loaded.contains position) ↔
        other < plan.attributes.length ∧ other ∉ loaded ∧ plan.FetchesWith index other := by
    rw [← asked]
    simp only [List.mem_filter, List.mem_range, Bool.and_eq_true, Bool.or_eq_true,
      List.contains_iff_mem, Bool.not_eq_true', ← Bool.not_eq_true]
    exact and_congr_right fun _ => and_comm
  refine filtered ?_
  rw [mem_eagerIndices, FetchesWith]
  split
  · rename_i group here
    rw [mem_groupMembers]
    constructor
    · rintro (same | eager)
      · exact .inr (.inr ⟨group, here, same⟩)
      · exact .inr (.inl eager)
    · rintro (rfl | eager | ⟨group', here', same⟩)
      · exact .inl here
      · exact .inr eager
      · obtain ⟨rfl⟩ := here.symm.trans here'
        exact .inl same
  · rename_i alone
    rw [List.mem_singleton]
    refine or_congr_right (or_iff_left ?_).symm
    rintro ⟨group, here, _⟩
    exact alone group here

theorem fetchIndices_sorted (loaded : AttributeSet) :
    (plan.fetchIndices index loaded).Pairwise (· < ·) :=
  List.pairwise_lt_range.filter _

/-- Different positions assign different attributes. -/
theorem nodup_assignments {entity : Entity} {indices : List Nat} (suits : plan.Suits entity)
    (valid : entity.Valid) (sorted : indices.Pairwise (· < ·)) (row : Row) :
    ((plan.assignments row indices).map Prod.fst).Nodup := by
  have names : (plan.assignments row indices).map Prod.fst =
      indices.filterMap ((plan.attributes.map PlannedAttribute.name)[·]?) := by
    simp only [assignments, attributesAt, List.map_filterMap, List.getElem?_map, Option.map_map]
    rfl
  rw [names, suits.names]
  exact valid.nodup_names sorted

end LoadPlan

/-- A read of an attribute that is neither loaded nor to raise an error comes to a fetch. -/
theorem Session.readRequest_fetch {session : Session} {inst : Instance} {entry : Entry}
    {name : String} {index : Nat} (attached : session.attached? inst = some entry)
    (live : entry.state.isLive) (position : inst.plan.index? name = some index)
    (unloaded : index ∉ entry.loaded) (loadable : inst.plan.modeAt? index ≠ some .raising) :
    session.readRequest inst name =
      (.ok (.fetch index (inst.plan.fetchIndices index entry.loaded)
        (inst.model.keyOf entry.record)), inst.sync entry) := by
  have present : entry.state ≠ .deleted := fun gone => by rw [gone] at live; cases live
  have missing : ¬ entry.loaded.contains index := unloaded
  have silent : ¬ (inst.sync entry).raisesAt index := by
    intro raises
    obtain ⟨planned, here, mode⟩ := (Option.any_eq_true _ _).mp raises
    exact loadable (Option.map_eq_some_iff.mpr ⟨planned, here, beq_iff_eq.mp mode⟩)
  unfold readRequest
  rw [Instance.index_eq_ok.mpr position, session.attached_eq_ok.mpr attached]
  dsimp only
  rw [if_neg present, if_neg missing, if_neg silent]
  rfl

/-! ## Queries -/

/-- A transaction is begun before the next query. -/
def Session.beginsFirst (session : Session) : Bool :=
  session.config.autoBegin && !session.inTransaction

/-- What is sent before the next query. -/
def Session.callsToBegin (session : Session) : List Call :=
  if session.beginsFirst then [.execute "BEGIN"] else []

/-- The session in a transaction, if its settings ask for one. -/
def Session.begun (session : Session) : Session :=
  { session with inTransaction := session.inTransaction || session.config.autoBegin }

namespace Action

theorem run_session_bind {α : Type} (next : Session → Action α) (context : Context) :
    (session >>= next).run.run context = (next context.session).run.run context :=
  rfl

/-- A computation that checks mappings adds to those found valid, and changes nothing else. -/
theorem ofConfiguring_run {α : Type} {computation : Configuring α} {context : Context}
    {result : Except Error α} {configured : Configured}
    (ran : computation.run.run context.configured = (result, configured)) :
    (ofConfiguring computation).run.run context =
      (ofExcept result).run.run { context with configured } := by
  have reading (next : Context → Action α) :
      (MonadState.get >>= next).run.run context = (next context).run.run context := rfl
  rw [ofConfiguring, reading, ran]
  rfl

theorem compile_run {schema : Schema} {statement : Statement} {context : Context}
    {result : Except Error CompiledStatement} {configured : Configured}
    (ran : (statement.compile schema context.session.config.dialect).run.run context.configured =
      (result, configured)) :
    (compile schema statement).run.run context =
      (ofExcept result).run.run { context with configured } :=
  (run_session_bind _ context).trans (ofConfiguring_run ran)

theorem queryByKey_run (inst : Instance) (columns : List String) (key : List Value)
    (context : Context) :
    (queryByKey inst columns key).run.run context =
      (query ((inst.plan.entity.queryByKey columns key).build
        context.session.config.dialect)).run.run context :=
  run_session_bind _ context

/-- A query sends a `BEGIN` if one is due, then itself, and has the next reply. -/
theorem query_run (context : Context) (statement : String × List Value)
    (begins : context.session.beginsFirst →
      context.connection.executeReplies.headD (.ok ()) = .ok ()) :
    ∃ connection : Connection, (query statement).run.run context =
        (context.connection.queryReplies.headD (.ok []),
          { context with session := context.session.begun, connection }) ∧
      connection.calls = context.connection.calls ++ context.session.callsToBegin ++
        [.query statement.1 statement.2] := by
  obtain ⟨⟨⟨autoBegin, _, _, _⟩, inTransaction, _, _, _⟩, ⟨replies, executions, calls⟩, _, _⟩ :=
    context
  match autoBegin, inTransaction, executions with
  | false, false, _ | false, true, _ | true, true, _ =>
      exact ⟨_, rfl, by simp [Session.callsToBegin, Session.beginsFirst]⟩
  | true, false, [] =>
      exact ⟨_, rfl, rfl⟩
  | true, false, execution :: _ =>
      obtain rfl : execution = .ok () := begins rfl
      exact ⟨_, rfl, rfl⟩

/-- A read that has to fetch sends its query, and lets the rows be received. -/
theorem loadAttribute_run {context : Context} {inst : Instance} {entry : Entry} {name : String}
    {index : Nat} (attached : context.session.attached? inst = some entry)
    (live : entry.state.isLive) (position : inst.plan.index? name = some index)
    (unloaded : index ∉ entry.loaded) (loadable : inst.plan.modeAt? index ≠ some .raising)
    (begins : context.session.beginsFirst →
      context.connection.executeReplies.headD (.ok ()) = .ok ()) :
    let fetched := inst.plan.fetchIndices index entry.loaded
    let key := inst.model.keyOf entry.record
    let sent := (inst.plan.entity.queryByKey (inst.plan.columnsAt fetched) key).build
      context.session.config.dialect
    ∃ connection : Connection,
      connection.calls = context.connection.calls ++ context.session.callsToBegin ++
        [.query sent.1 sent.2] ∧
      loadAttribute inst name context =
        match context.connection.queryReplies.headD (.ok []) with
        | .error interruption => (.error interruption, inst.sync entry,
            { context with session := context.session.begun, connection })
        | .ok rows => onInstance (fun session =>
            session.receiveFetched (inst.sync entry) name index fetched key rows)
            { context with session := context.session.begun, connection } := by
  intro fetched key sent
  obtain ⟨connection, run, calls⟩ := query_run context sent begins
  refine ⟨connection, calls, ?_⟩
  have replied : (queryByKey (inst.sync entry) (inst.plan.columnsAt fetched) key).run.run context =
      (context.connection.queryReplies.headD (.ok []),
        { context with session := context.session.begun, connection }) :=
    (queryByKey_run _ _ _ context).trans run
  unfold loadAttribute
  rw [Session.readRequest_fetch attached live position unloaded loadable]
  dsimp only
  unfold afterQuery
  rw [show (inst.sync entry).plan = inst.plan from rfl, replied]
  cases context.connection.queryReplies.headD (.ok []) <;> rfl

end Action

namespace Session

variable {session : Session} {inst : Instance} {entry : Entry} {fetched : List Nat} {row : Row}

/-- The session that has counted the load of an attribute, if the plan defers it. -/
def counting (session : Session) (plan : LoadPlan) (index : Nat) (table name : String) : Session :=
  { session with
    tracker :=
      if plan.defersAt index then (session.tracker.record table name).2 else session.tracker }

theorem countLoad_eq_counting {name : String} {index : Nat}
    (position : inst.plan.index? name = some index) :
    session.countLoad inst index = session.counting inst.plan index inst.model.table name := by
  obtain ⟨inside, named, -⟩ := List.findIdx?_eq_some_iff_getElem.mp position
  obtain rfl := beq_iff_eq.mp named
  unfold countLoad counting LoadPlan.defersAt LoadPlan.modeAt?
  rw [List.getElem?_eq_getElem inside]
  cases inst.plan.attributes[index] with
  | mk name column mode primaryKey => cases mode <;> rfl

theorem receiveFetched_nothing (attached : session.attached inst = .ok entry) (name : String)
    (index : Nat) (fetched : List Nat) (key : List Value) :
    session.receiveFetched inst name index fetched key [] =
      (.error (deletedError inst key), inst,
        session.withEntry inst.key { entry with state := .deleted }) := by
  unfold receiveFetched
  rw [attached]
  rfl

theorem receiveFetched_refused (attached : session.attached inst = .ok entry) (name : String)
    (index : Nat) (key : List Value) (rest : List Row) {error : Error}
    (refused : (inst.model.assignAll entry.record (inst.plan.assignments row fetched)).2 =
      .error error) :
    session.receiveFetched inst name index fetched key (row :: rest) =
      (.error error, inst, session.withEntry inst.key
        { entry with
          record :=
            (inst.model.assignAll entry.record (inst.plan.assignments row fetched)).1 }) := by
  rw [receiveFetched_row session attached, EntryChange.apply, Entry.assigning_of_error refused,
    refused]

theorem receiveFetched_fills (attached : session.attached inst = .ok entry) {name : String}
    {index : Nat} (position : inst.plan.index? name = some index) (key : List Value)
    (rest : List Row)
    (taken : (inst.model.assignAll entry.record (inst.plan.assignments row fetched)).2 = .ok ()) :
    let after := EntryChange.apply entry (.fetch inst.model inst.plan fetched row)
    session.receiveFetched inst name index fetched key (row :: rest) =
      (.ok (inst.model.attributeOrNull after.record name), inst.sync after,
        (session.withEntry inst.key after).counting inst.plan index inst.model.table name) := by
  intro after
  rw [receiveFetched_row session attached, taken, countLoad_eq_counting position]

end Session

/-! ## Entries after a fetch -/

/-- Attributes at some positions of an entry are fetched from a row. -/
structure Entry.Fetched (plan : LoadPlan) (fetched : List Nat) (row : Row)
    (before after : Entry) : Prop where
  loaded : ∀ index, index ∈ after.loaded ↔ index ∈ before.loaded ∨ index ∈ fetched
  /-- The record is what the model makes of assigning the values of the columns, null where there
  is none. -/
  record : after.record =
    (before.model.assignAll before.record (plan.assignments row fetched)).1
  /-- The fetched attributes have these values, if the model keeps what it is given. -/
  values : before.model.AssignsAsGiven → ∀ index ∈ fetched, ∀ planned,
    plan.attributes[index]? = some planned →
      after.model.attribute? after.record planned.name = some (row.valueOf planned.column)
  others : before.model.ChangesOnlyNamed → ∀ name,
    (∀ index ∈ fetched, ∀ planned, plan.attributes[index]? = some planned → planned.name ≠ name) →
      after.model.attribute? after.record name = before.model.attribute? before.record name
  state : after.state = .persistent
  model : after.model = before.model
  handle : after.handle = before.handle
  version : after.version = before.version

/-- The change that a fetch makes of a live entry when its model takes all values. -/
theorem Entry.fetched {entry : Entry} {plan : LoadPlan} {fetched : List Nat} {row : Row}
    (suits : plan.Suits entry.model.entity) (valid : entry.model.entity.Valid)
    (size : entry.loaded.size = plan.attributes.length) (made : entry.IsMade)
    (live : entry.state.isLive) (sorted : fetched.Pairwise (· < ·))
    (inside : ∀ index ∈ fetched, index < plan.attributes.length)
    (ok : (entry.model.assignAll entry.record (plan.assignments row fetched)).2 = .ok ()) :
    entry.Fetched plan fetched row
      (EntryChange.apply entry (.fetch entry.model plan fetched row)) := by
  rw [EntryChange.apply, Entry.assigning_of_ok ok]
  refine ⟨fun index => ?_, rfl, fun promise index member planned here => ?_,
    fun promise name apart => ?_, ?_, rfl, rfl, rfl⟩
  · refine (AttributeSet.contains_insertAll _ _ index).trans (or_congr_right ?_)
    exact and_iff_left_of_imp fun member => size ▸ inside index member
  · have distinct := plan.nodup_assignments suits valid sorted row
    exact (promise.assignAll made distinct ok).1 _
      (LoadPlan.mem_assignments.mpr ⟨index, member, planned, here, rfl⟩)
  · refine promise.assignAll (fun listed => ?_) entry.record
    obtain ⟨assignment, member, rfl⟩ := List.mem_map.mp listed
    obtain ⟨index, given, planned, here, rfl⟩ := LoadPlan.mem_assignments.mp member
    exact apart index given planned here rfl
  · cases state : entry.state with
    | persistent | expired => rfl
    | deleted | detached =>
        rw [state] at live
        cases live

namespace Program

variable [Hashable Digest] {models : String → Model} {schema : Schema} {configs : List Config}
  {program : Program} {number held : Nat} {session : Session} {inst : Instance} {entry : Entry}

/-- The program with one session and one instance put in the places of their numbers. -/
def putting (program : Program) (number : Nat) (session : Session) (held : Nat)
    (inst : Instance) : Program :=
  { program with
    sessions := program.sessions.set number session
    instances := program.instances.set held inst }

/-- A fetch fills the entry of an attached instance, in every program reached. -/
theorem Reaches.fills {index : Nat} {row : Row} (declared : schema.Typed models)
    (reached : Reaches (fun _ _ _ request => request.Typed models) (ofConfigs schema configs)
      program)
    (here : program.sessions[number]? = some session)
    (holds : program.instances[held]? = some inst)
    (attached : session.attached? inst = some entry) (live : entry.state.isLive)
    (taken : (inst.model.assignAll entry.record
      (inst.plan.assignments row (inst.plan.fetchIndices index entry.loaded))).2 = .ok ()) :
    entry.Fetched inst.plan (inst.plan.fetchIndices index entry.loaded) row
      (EntryChange.apply entry
        (.fetch inst.model inst.plan (inst.plan.fetchIndices index entry.loaded) row)) := by
  obtain ⟨there, -, -⟩ := session.attached?_eq_some.mp attached
  have member := List.mem_of_getElem? here
  have well := reached.wellTyped declared fun typed => typed
  have fits := well.entries session member inst.key entry there
  have instFits := well.instances inst (List.mem_of_getElem? holds)
  have same := instFits.model_eq fits
  have suits : inst.plan.Suits entry.model.entity := same ▸ instFits.suits
  have context : (program.contextOf session .silent).WellTyped models := well.context here
  have valid : entry.model.entity.Valid := context.valid fits.typed fits.checked
  have size := fits.size.trans suits.length_eq.symm
  have made := reached.makes declared (fun typed => typed) session member inst.key entry there
  rw [same] at taken ⊢
  exact Entry.fetched suits valid size made live (LoadPlan.fetchIndices_sorted _)
    (fun other asked => (LoadPlan.mem_fetchIndices_iff.mp asked).1) taken

/-- **A read of an attribute that is not loaded fetches it with one query.** The query asks by key
for the columns of the attributes that go with it and are not loaded. A row that the model takes
fills them in the entry, of which the instance has a copy then, and the read has the value of the
attribute; no row marks the entry as deleted. Beyond that the session changes only in being in the
transaction that was begun, if one was due, and in having counted the load of a deferred
attribute. -/
theorem Reaches.load_fetches_once (declared : schema.Typed models)
    (reached : Reaches (fun _ _ _ request => request.Typed models) (ofConfigs schema configs)
      program)
    (here : program.sessions[number]? = some session)
    (holds : program.instances[held]? = some inst)
    (attached : session.attached? inst = some entry) (live : entry.state.isLive) {name : String}
    {index : Nat} (position : inst.plan.index? name = some index)
    (unloaded : index ∉ entry.loaded) (loadable : inst.plan.modeAt? index ≠ some .raising)
    (connection : Connection)
    (begins : session.beginsFirst → connection.executeReplies.headD (.ok ()) = .ok ()) :
    let fetched := inst.plan.fetchIndices index entry.loaded
    let key := inst.model.keyOf entry.record
    let sent := (inst.plan.entity.queryByKey (inst.plan.columnsAt fetched) key).build
      session.config.dialect
    let ended := program.step number connection (.load held name)
    fetched.Pairwise (· < ·) ∧
    (∀ other, other ∈ fetched ↔
      other < inst.plan.attributes.length ∧ other ∉ entry.loaded ∧
        inst.plan.FetchesWith index other) ∧
    ended.calls = connection.calls ++ session.callsToBegin ++ [.query sent.1 sent.2] ∧
    match connection.queryReplies.headD (.ok []) with
    | .error interruption =>
      ended.outcome = .error interruption ∧
        ended.program = program.putting number session.begun held (inst.sync entry)
    | .ok [] =>
      ended.outcome = .error (.failed (.objectDeleted inst.model.table (Value.displayKey key))) ∧
        ended.program = program.putting number
          (session.begun.withEntry inst.key { entry with state := .deleted }) held
          (inst.sync entry)
    | .ok (row :: _) =>
      let assigned := inst.model.assignAll entry.record (inst.plan.assignments row fetched)
      match assigned.2 with
      | .error error =>
        ended.outcome = .error (.failed error) ∧
          ended.program = program.putting number
            (session.begun.withEntry inst.key { entry with record := assigned.1 }) held
            (inst.sync entry)
      | .ok () => ∃ after, entry.Fetched inst.plan fetched row after ∧
        ended.outcome = .ok (.value (inst.model.attributeOrNull after.record name)) ∧
        ended.program = program.putting number
          ((session.begun.withEntry inst.key after).counting inst.plan index inst.model.table name)
          held (inst.sync after) := by
  intro fetched key sent ended
  have started : (program.contextOf session connection).session.attached? inst = some entry :=
    attached
  obtain ⟨connection', calls, run⟩ :=
    Action.loadAttribute_run started live position unloaded loadable begins
  -- The whole step, once it is known how the read went.
  have ends {outcome : Outcome Value} {copy : Instance} {after : Session}
      (read : Action.loadAttribute inst name (program.contextOf session connection) =
        (outcome, copy, ⟨after, connection', program.nextHandle, program.configured⟩)) :
      ended = ⟨outcome.map .value, connection'.calls, program.putting number after held copy⟩ := by
    have performed : program.performOn number (program.contextOf session connection) held
        (Action.loadAttribute · name) .value = _ := performOn_of_instance holds read .value
    exact (step_of_session here connection _).trans performed
  have synced : session.begun.attached (inst.sync entry) = .ok entry :=
    session.attached_eq_ok.mpr attached
  refine ⟨LoadPlan.fetchIndices_sorted _, fun other => LoadPlan.mem_fetchIndices_iff, ?_⟩
  rw [show (program.contextOf session connection).connection = connection from rfl] at run
  cases reply : connection.queryReplies.headD (.ok []) with
  | error interruption =>
      rw [reply] at run
      rw [ends run]
      exact ⟨calls, rfl, rfl⟩
  | ok rows =>
      rw [reply] at run
      cases rows with
      | nil =>
          have received := Session.receiveFetched_nothing synced name index fetched key
          rw [ends (run.trans (Action.onInstance_eq received))]
          exact ⟨calls, rfl, rfl⟩
      | cons row rest =>
          dsimp only
          split
          · rename_i error refused
            have received := Session.receiveFetched_refused synced name index key rest refused
            rw [ends (run.trans (Action.onInstance_eq received))]
            exact ⟨calls, rfl, rfl⟩
          · rename_i taken
            have received := Session.receiveFetched_fills synced position key rest taken
            rw [ends (run.trans (Action.onInstance_eq received))]
            exact ⟨calls, _, reached.fills declared here holds attached live taken, rfl, rfl⟩

end Program

open Catalogue in
/-- The cover of a book is fetched together with its thumbnail. -/
theorem Catalogue.bookshop_fetches_media :
    let ended := bookshop.step 0
      ⟨[.ok [⟨["cover_image", "thumbnail"], [.text "front", .text "small"]⟩]], [], []⟩
      (.load 0 "cover")
    ended.calls = [.query
      "SELECT \"cover_image\", \"thumbnail\" FROM books WHERE \"id\" = $1" [.int 1]] ∧
    ∃ session after, ended.program.sessions[0]? = some session ∧
      session.identities.find? (Key.ofValues book [.int 1]) = some after ∧
      5 ∈ after.loaded ∧
      after.model.attribute? after.record "thumbnail" = some (.text "small") := by
  have reached : Program.Reaches (fun _ _ _ request => request.Typed modelOf)
      (.ofConfigs schema [.default]) bookshop := .step .start (everything_typed book rfl)
  obtain ⟨-, asked, calls, after, filled, -, program⟩ := reached.load_fetches_once schema_typed
    (show bookshop.sessions[0]? = some _ from rfl) (show bookshop.instances[0]? = some _ from rfl)
    (show Session.attached? _ _ = some _ from rfl) rfl
    (show LoadPlan.index? _ "cover" = some 4 from rfl) (by decide) (by decide)
    ⟨[.ok [⟨["cover_image", "thumbnail"], [.text "front", .text "small"]⟩]], [], []⟩ nofun
  have thumbnail := (asked 5).mpr ⟨by decide, by decide, .inr (.inr ⟨"media", rfl, rfl⟩)⟩
  have small := filled.values Model.ofEntity_storesAsGiven.assigned 5 thumbnail
    ⟨"thumbnail", "thumbnail", .deferred (some "media"), false⟩ rfl
  have loaded := (filled.loaded 5).mpr (.inr thumbnail)
  exact ⟨calls, _, after, by rw [program]; rfl, rfl, loaded, small⟩

end LazyMapper
