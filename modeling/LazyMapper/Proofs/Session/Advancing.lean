import LazyMapper.Proofs.Session.Absorption
import LazyMapper.Proofs.Session.Expiration
import LazyMapper.Proofs.Session.Tracking

/-!
# What a turn makes of an entry

The state of an entry changes in few ways (`Program.Moves`). A persistent entry is expired, and an
expired one becomes persistent again when a row is merged into it or its attributes are loaded. When
the row of a live entry is asked for and not found, the entry is deleted, and only a refresh that
finds the row brings it back. Any entry can be detached, and a detached one stays so. An entry that
is deleted or detached may be replaced, by merging a row of its key, with a new entry that has a new
handle number (`Program.Replaces`).

A turn does at most one of these to an entry of its session, and every such entry is still there
after it (`Program.take_advances`). That is shown of each request by what its action leaves behind:
all entries are expired or detached together, an action on an instance changes its entry alone, and
the rows of a query are merged into the entries of their keys.
-/

set_option autoImplicit false

namespace LazyMapper

namespace Program

variable [Hashable Digest]

/-! ## Moves -/

/-- The query of a turn is answered with the rows. -/
def Answers (program : Program) (turn : Turn) (rows : List Row) : Prop :=
  ∃ statement, .query statement (.ok rows) ∈ program.sentIn turn

/-- A turn has a row of the key for the model, in the answer to its query. -/
def Delivers (program : Program) (turn : Turn) (key : Key) (model : Model) (row : Row) : Prop :=
  ∃ rows, program.Answers turn rows ∧
    (model, row) ∈ rows.flatMap (·.partsFor turn.request.loaded) ∧ model.rowKey? row = some key

/-- The changes of state that a turn may bring about in the entry of a key. -/
inductive Moves (program : Program) (turn : Turn) (key : Key) (old : Entry) :
    EntryState → Prop where
  /-- The entry is expired, alone or with all entries of the session. -/
  | expires (was : old.state = .persistent) (done : (program.take turn).outcome = .ok .done)
      (asked : (∃ session, program.sessions[turn.session]? = some session ∧
          ExpiresAll session turn.request) ∨
        ∃ held inst names, turn.request = .expire held names ∧
          program.Attaches held inst key old) :
      Moves program turn key old .expired
  /-- The entry absorbs a row that is merged. -/
  | merges {model : Model} {row : Row} (was : old.state = .expired)
      (delivered : program.Delivers turn key model row)
      (taken : (old.absorb model row).2 = .ok ()) :
      Moves program turn key old .persistent
  /-- Attributes are loaded by a read or a refresh. -/
  | reloads {held : Nat} {inst : Instance} {reply : Reply} {row : Row} {rest : List Row}
      (was : old.state = .expired)
      (asked : (∃ name, turn.request = .load held name) ∨ turn.request = .refresh held)
      (attached : program.Attaches held inst key old)
      (answered : program.Answers turn (row :: rest))
      (done : (program.take turn).outcome = .ok reply) :
      Moves program turn key old .persistent
  /-- The row is found to be gone by a read or a refresh. -/
  | vanishes {held : Nat} {inst : Instance}
      (was : old.state = .persistent ∨ old.state = .expired)
      (asked : (∃ name, turn.request = .load held name) ∨ turn.request = .refresh held)
      (attached : program.Attaches held inst key old) (answered : program.Answers turn []) :
      Moves program turn key old .deleted
  /-- A refresh finds the row again, and the model takes all values of it. -/
  | returns {held : Nat} {inst : Instance} {row : Row} {rest : List Row}
      (was : old.state = .deleted) (asked : turn.request = .refresh held)
      (attached : program.Attaches held inst key old)
      (answered : program.Answers turn (row :: rest))
      (taken : (inst.model.assignAll old.record
        (inst.plan.assignments row inst.plan.eagerIndices)).2 = .ok ()) :
      Moves program turn key old .persistent
  /-- The entry is detached, alone or with all entries of the session. -/
  | detaches (was : old.state ≠ .detached)
      (asked : turn.request = .expungeAll ∨ ∃ held inst, turn.request = .expunge held ∧
        program.Attaches held inst key old) :
      Moves program turn key old .detached

/-- A turn replaces the entry of a key: the old one is deleted or detached, and a row of the key has
made a new one, with a handle number that was not in use. -/
structure Replaces (program : Program) (turn : Turn) (key : Key) (old next : Entry) : Prop where
  gone : old.state = .deleted ∨ old.state = .detached
  delivered : ∃ model row, program.Delivers turn key model row
  handle : program.nextHandle ≤ next.handle
  state : next.state = .persistent

/-- What a turn makes of the entry of a key. -/
inductive Advances (program : Program) (turn : Turn) (key : Key) (old next : Entry) : Prop where
  | stays (handle : next.handle = old.handle) (state : next.state = old.state)
  | moves (handle : next.handle = old.handle) (moved : program.Moves turn key old next.state)
  | replaced (replaces : program.Replaces turn key old next)

/-- What a turn makes of the entries of its session. -/
def AllAdvance (program : Program) (turn : Turn) (before after : Session) : Prop :=
  ∀ key old, before.identities.find? key = some old → ∃ next,
    after.identities.find? key = some next ∧ program.Advances turn key old next

variable {program : Program} {turn : Turn} {session middle after : Session}

theorem Moves.ne_detached {key : Key} {old : Entry} {state : EntryState}
    (moved : program.Moves turn key old state) (still : old.state = .detached) : False := by
  cases moved with
  | expires was | merges was | reloads was | returns was =>
      rw [still] at was
      cases was
  | vanishes was => rcases was with was | was <;> (rw [still] at was; cases was)
  | detaches was => exact was still

namespace AllAdvance

theorem of_states (kept : session.KeepsStates after) : program.AllAdvance turn session after := by
  intro key old there
  obtain ⟨next, found, handle, state⟩ := kept key old there
  exact ⟨next, found, .stays handle state⟩

theorem of_identities (same : after.identities = session.identities) :
    program.AllAdvance turn session after :=
  of_states (.of_identities same)

theorem congr {last : Session} (advance : program.AllAdvance turn session after)
    (same : last.identities = after.identities) : program.AllAdvance turn session last := by
  intro key old there
  rw [same]
  exact advance key old there

/-- Only the entry of a key is touched. -/
theorem of_entry {key : Key} {old next : Entry} (there : session.identities.find? key = some old)
    (same : middle.identities = session.identities)
    (advances : program.Advances turn key old next) :
    program.AllAdvance turn session (middle.withEntry key next) := by
  intro other entry found
  have after := middle.find?_withEntry key other next
  by_cases own : other = key
  · subst own
    obtain rfl := Option.some.inj (there.symm.trans found)
    exact ⟨next, after.trans (if_pos rfl), advances⟩
  · exact ⟨entry, (after.trans (if_neg own)).trans (same ▸ found), .stays rfl rfl⟩

/-- All entries are expired that are not detached. -/
theorem of_expireAll (here : program.sessions[turn.session]? = some session)
    (same : middle.identities = session.identities) (asked : ExpiresAll session turn.request)
    (done : (program.take turn).outcome = .ok .done) :
    program.AllAdvance turn session middle.expireAll := by
  intro key old there
  refine ⟨_, by rw [Session.find?_expireAll, same, there, Option.map_some], ?_⟩
  split
  · exact .stays rfl rfl
  · cases state : old.state with
    | persistent =>
        refine .moves rfl ?_
        rw [Entry.expireAll, state]
        exact .expires state done (.inl ⟨session, here, asked⟩)
    | expired | deleted | detached =>
        refine .stays rfl ?_
        rw [Entry.expireAll, state]
        rfl

/-- All entries are detached. -/
theorem of_expungeAll (asked : turn.request = .expungeAll) :
    program.AllAdvance turn session session.expungeAll := by
  intro key old there
  refine ⟨{ old with state := .detached }, ?_, ?_⟩
  · rw [Session.expungeAll, IdentityMap.find?_mapEntries, there, Option.map_some]
  · by_cases state : old.state = .detached
    · exact .stays rfl state.symm
    · exact .moves rfl (.detaches state (.inl asked))

end AllAdvance

/-! ## Queries of a turn -/

/-- A query that a turn has called is answered with what the turn has for it. -/
theorem answers_of_call {rows : List Row} (here : program.sessions[turn.session]? = some session)
    (replied : turn.queries.headD (.ok []) = .ok rows) {sql : String} {params : List Value}
    (called : .query sql params ∈ (program.take turn).calls) : program.Answers turn rows := by
  obtain ⟨sending, -, sends⟩ := take_sends here
  obtain ⟨sent, calls, -⟩ := sends turn.queries turn.executions
  rw [show (program.take turn).calls = _ from calls] at called
  obtain ⟨exchange, member, called⟩ := List.mem_map.mp called
  rw [Answers, show program.sentIn turn = _ from sent]
  cases exchange with
  | execute => cases called
  | query statement reply =>
      obtain rfl := (sending.reply_eq_of_mem member).trans replied
      exact ⟨statement, member⟩

/-! ## Requests that load instances -/

/-- What a row was merged into has gone on by a move of the turn, if not in its old state. -/
theorem AllAdvance.of_loaded (here : program.sessions[turn.session]? = some session)
    {context : Context} (calls : (program.take turn).calls = context.connection.calls)
    (loaded : (program.contextOf session ⟨turn.queries, turn.executions, []⟩).Loaded
      turn.request.loaded context) : program.AllAdvance turn session context.session := by
  obtain same | ⟨rows, middle, ⟨replied, sql, params, called⟩, joined, kept⟩ := loaded
  · exact .of_identities same.identities
  have answers : program.Answers turn rows := answers_of_call here replied (calls ▸ called)
  intro key old there
  obtain ⟨entry, found, joins⟩ := joined.entries key old there
  obtain ⟨next, found', handle, state⟩ := kept key entry found
  refine ⟨next, found', ?_⟩
  cases joins with
  | untouched => exact .stays handle state
  | absorbed live merged keyed taken same persistent =>
      cases was : old.state with
      | persistent => exact .stays (handle.trans same) (by rw [state, persistent, was])
      | expired =>
          refine .moves (handle.trans same) ?_
          rw [state, persistent]
          exact .merges was ⟨rows, answers, merged, keyed⟩ taken
      | deleted | detached =>
          rw [was] at live
          cases live
  | @replaced _ model row gone merged keyed new persistent =>
      refine .replaced ⟨?_, ⟨model, row, rows, answers, merged, keyed⟩, handle ▸ new,
        state.trans persistent⟩
      cases was : old.state with
      | persistent | expired =>
          rw [was] at gone
          cases gone
      | deleted => exact .inl rfl
      | detached => exact .inr rfl

/-- The entries of the session of a turn advance when the turn comes to a step. -/
def Settles (program : Program) (turn : Turn) (session : Session) (step : Step) : Prop :=
  program.take turn = step →
    ∃ after, step.program.sessions[turn.session]? = some after ∧
      program.AllAdvance turn session after

/-- A turn that runs an action settles as the action ends. -/
theorem perform_settles {α : Type} {action : Action α} {answer : α → Program → Reply × Program}
    {good : α → Context → Prop} {bad : Interruption → Context → Prop}
    (here : program.sessions[turn.session]? = some session)
    (ends : Ends action (program.contextOf session ⟨turn.queries, turn.executions, []⟩) good bad)
    (keeps : ∀ result program, (answer result program).2.sessions = program.sessions)
    (succeeds : ∀ result context, good result context →
      (program.take turn).calls = context.connection.calls →
      (program.take turn).outcome =
          .ok (answer result (program.withContext turn.session context)).1 →
        program.AllAdvance turn session context.session)
    (fails : ∀ interruption context, bad interruption context →
      (program.take turn).calls = context.connection.calls →
        program.AllAdvance turn session context.session) :
    program.Settles turn session (program.perform turn.session
      (program.contextOf session ⟨turn.queries, turn.executions, []⟩) action answer) := by
  intro taken
  have inside := (List.getElem?_eq_some_iff.mp here).1
  unfold perform at taken ⊢
  unfold Ends at ends
  generalize action.run.run (program.contextOf session _) = run at ends taken ⊢
  obtain ⟨interruption | result, context⟩ := run
  · exact ⟨_, List.getElem?_set_self inside, fails interruption context ends (by rw [taken])⟩
  · refine ⟨context.session, ?_, succeeds result context ends (by rw [taken]) (by rw [taken])⟩
    dsimp only
    rw [keeps]
    exact List.getElem?_set_self inside

/-- A turn that loads instances. -/
theorem loading_settles {α : Type} {action : Action α} {answer : α → Program → Reply × Program}
    (here : program.sessions[turn.session]? = some session)
    (loaded : action.Leaves (program.contextOf session ⟨turn.queries, turn.executions, []⟩)
      ((program.contextOf session ⟨turn.queries, turn.executions, []⟩).Loaded turn.request.loaded))
    (keeps : ∀ result program, (answer result program).2.sessions = program.sessions) :
    program.Settles turn session (program.perform turn.session
      (program.contextOf session ⟨turn.queries, turn.executions, []⟩) action answer) :=
  perform_settles here loaded keeps (fun _ _ loaded calls _ => .of_loaded here calls loaded)
    fun _ _ loaded calls => .of_loaded here calls loaded

/-! ## Requests about the whole session -/

/-- A turn that changes the session and sends nothing. -/
theorem modifySession_settles {change : Session → Session}
    (here : program.sessions[turn.session]? = some session)
    (advance : (program.take turn).outcome = .ok .done →
      program.AllAdvance turn session (change session)) :
    program.Settles turn session (program.perform turn.session
      (program.contextOf session ⟨turn.queries, turn.executions, []⟩)
      (Action.modifySession change) fun _ program => (.done, program)) := by
  have ends : Ends (Action.modifySession change)
      (program.contextOf session ⟨turn.queries, turn.executions, []⟩)
      (fun _ after => after.session = change session) fun _ _ => False := ends_modify.mpr rfl
  refine perform_settles here ends (fun _ _ => rfl) (fun _ context same _ done => ?_)
    fun _ _ impossible => impossible.elim
  rw [same]
  exact advance done

/-- A turn that touches no entry. -/
theorem still_settles {α : Type} {action : Action α} {answer : α → Program → Reply × Program}
    (here : program.sessions[turn.session]? = some session)
    (leaves : action.Leaves (program.contextOf session ⟨turn.queries, turn.executions, []⟩)
      fun after => after.session.identities = session.identities)
    (keeps : ∀ result program, (answer result program).2.sessions = program.sessions) :
    program.Settles turn session (program.perform turn.session
      (program.contextOf session ⟨turn.queries, turn.executions, []⟩) action answer) :=
  perform_settles here leaves keeps (fun _ _ same _ _ => .of_identities same)
    fun _ _ same _ => .of_identities same

/-- A turn that ends a transaction, and expires all entries behind that if it is to. -/
theorem closing_settles {sql : String} {next : Action Unit}
    (here : program.sessions[turn.session]? = some session)
    (closes : ∀ middle : Context, middle.session.config = session.config →
      Ends next middle (fun _ after => after.session = middle.session ∨
        ExpiresAll session turn.request ∧ after.session = middle.session.expireAll)
        fun _ _ => False) :
    program.Settles turn session (program.perform turn.session
      (program.contextOf session ⟨turn.queries, turn.executions, []⟩)
      (do Action.endTransaction sql; next) fun _ program => (.done, program)) := by
  have ends : Ends (do Action.endTransaction sql; next)
      (program.contextOf session ⟨turn.queries, turn.executions, []⟩)
      (fun _ after => ∃ middle : Session, middle.identities = session.identities ∧
        (after.session = middle ∨
          ExpiresAll session turn.request ∧ after.session = middle.expireAll))
      fun _ after => after.session.identities = session.identities := by
    refine ends_bind.mpr ((Action.endTransaction_ends sql _).mono (fun _ middle same => ?_)
      fun _ _ same => same.identities)
    exact (closes middle same.config).mono
      (fun _ _ expired => ⟨middle.session, same.identities, expired⟩)
      fun _ _ impossible => impossible.elim
  refine perform_settles here ends (fun _ _ => rfl) ?_ fun _ _ same _ => .of_identities same
  rintro _ context ⟨middle, same, closed | ⟨asked, closed⟩⟩ - done
  · exact .of_identities (closed ▸ same)
  · rw [closed]
    exact .of_expireAll here same asked done

/-! ## Requests about an instance -/

/-- A turn that runs an action on an instance. -/
theorem performOn_settles {α : Type} {action : Instance → Action.OnInstance α} {answer : α → Reply}
    {held : Nat} (here : program.sessions[turn.session]? = some session)
    (advance : ∀ inst, program.instances[held]? = some inst → ∀ outcome copy context,
      action inst (program.contextOf session ⟨turn.queries, turn.executions, []⟩) =
        (outcome, copy, context) →
      (program.take turn).calls = context.connection.calls →
      (program.take turn).outcome = outcome.map answer →
        program.AllAdvance turn session context.session) :
    program.Settles turn session (program.performOn turn.session
      (program.contextOf session ⟨turn.queries, turn.executions, []⟩) held action answer) := by
  intro taken
  cases there : program.instances[held]? with
  | none =>
      unfold performOn
      rw [there]
      exact ⟨session, here, .of_identities rfl⟩
  | some inst =>
      obtain ⟨outcome, copy, context, run⟩ : ∃ outcome copy context,
          action inst (program.contextOf session ⟨turn.queries, turn.executions, []⟩) =
            (outcome, copy, context) := ⟨_, _, _, rfl⟩
      rw [performOn_of_instance there run] at taken ⊢
      exact ⟨context.session, List.getElem?_set_self (List.getElem?_eq_some_iff.mp here).1,
        advance inst there outcome copy context run (by rw [taken]) (by rw [taken])⟩

section Instances

variable {held : Nat} {inst copy : Instance} {key : Key} {entry : Entry} {row : Row}
  {rest : List Row}

/-- An entry is deleted when its row is asked for and gone. -/
theorem advances_of_gone (attaches : program.Attaches held inst key entry)
    (asked : (∃ name, turn.request = .load held name) ∨ turn.request = .refresh held)
    (answered : program.Answers turn []) :
    program.Advances turn key entry { entry with state := .deleted } := by
  cases was : entry.state with
  | persistent => exact .moves rfl (.vanishes (.inl was) asked attaches answered)
  | expired => exact .moves rfl (.vanishes (.inr was) asked attaches answered)
  | deleted => exact .stays rfl was.symm
  | detached => exact absurd was attaches.state

/-- A refused value leaves an entry in its state. -/
theorem advances_of_refused {model : Model} {assignments : List (String × Value)}
    {settle : Entry → Entry} {error : Error}
    (refused : (model.assignAll entry.record assignments).2 = .error error) :
    program.Advances turn key entry (entry.assigning model assignments settle) := by
  rw [Entry.assigning_of_error refused]
  exact .stays rfl rfl

/-- An entry that takes all values of a fetched row is persistent if it was live. -/
theorem advances_of_fetched {name : String} {indices : List Nat} {reply : Reply}
    (attaches : program.Attaches held inst key entry) (asked : turn.request = .load held name)
    (answered : program.Answers turn (row :: rest))
    (taken : (copy.model.assignAll entry.record (copy.plan.assignments row indices)).2 = .ok ())
    (done : (program.take turn).outcome = .ok reply) :
    program.Advances turn key entry
      (EntryChange.apply entry (.fetch copy.model copy.plan indices row)) := by
  rw [EntryChange.apply, Entry.assigning_of_ok taken]
  cases was : entry.state with
  | persistent | deleted => exact .stays rfl was.symm
  | expired => exact .moves rfl (.reloads was (.inl ⟨name, asked⟩) attaches answered done)
  | detached => exact absurd was attaches.state

/-- An entry that takes all values of a refreshing row is persistent. -/
theorem advances_of_refreshed {reply : Reply} (attaches : program.Attaches held inst key entry)
    (asked : turn.request = .refresh held) (answered : program.Answers turn (row :: rest))
    (taken : (inst.model.assignAll entry.record
      (inst.plan.assignments row inst.plan.eagerIndices)).2 = .ok ())
    (done : (program.take turn).outcome = .ok reply) :
    program.Advances turn key entry
      (EntryChange.apply entry (.refresh inst.model inst.plan row)) := by
  rw [EntryChange.apply, Entry.assigning_of_ok taken]
  cases was : entry.state with
  | persistent => exact .stays rfl was.symm
  | expired => exact .moves rfl (.reloads was (.inr asked) attaches answered done)
  | deleted => exact .moves rfl (.returns was asked attaches answered taken)
  | detached => exact absurd was attaches.state

/-- The rows of a fetch reach the entry that is read. -/
theorem receiveFetched_advances {name : String} {index : Nat} {indices : List Nat}
    {values : List Value} {rows : List Row}
    (found : session.identities.find? copy.key = some entry)
    (attaches : program.Attaches held inst copy.key entry)
    (asked : turn.request = .load held name) (same : middle.identities = session.identities)
    (attached : middle.attached copy = .ok entry) (answered : program.Answers turn rows) :
    let received := middle.receiveFetched copy name index indices values rows
    (program.take turn).outcome = (Action.outcome received.1).map .value →
      program.AllAdvance turn session received.2.2 := by
  intro received done
  cases rows with
  | nil =>
      rw [show received = _ from Session.receiveFetched_nothing attached name index indices values]
      exact .of_entry found same (advances_of_gone attaches (.inl ⟨name, asked⟩) answered)
  | cons row rest =>
      have changed : received = _ :=
        middle.receiveFetched_row attached name index indices values row rest
      cases taken : (copy.model.assignAll entry.record (copy.plan.assignments row indices)).2 with
      | error error =>
          rw [taken] at changed
          rw [changed]
          refine .of_entry found same ?_
          rw [EntryChange.apply]
          exact advances_of_refused taken
      | ok _ =>
          rw [taken] at changed
          rw [changed] at done ⊢
          obtain ⟨tracker, counted⟩ := (middle.withEntry copy.key (EntryChange.apply entry
            (.fetch copy.model copy.plan indices row))).countLoad_eq copy index
          exact AllAdvance.congr
            (.of_entry found same (advances_of_fetched attaches asked answered taken done))
            (by rw [counted])

/-- The rows of a refresh reach the entry that is refreshed. -/
theorem receiveRefreshed_advances {values : List Value} {rows : List Row}
    (found : session.identities.find? inst.key = some entry)
    (attaches : program.Attaches held inst inst.key entry)
    (asked : turn.request = .refresh held) (same : middle.identities = session.identities)
    (attached : middle.attached inst = .ok entry) (answered : program.Answers turn rows) :
    let received := middle.receiveRefreshed inst values rows
    (program.take turn).outcome = (Action.outcome received.1).map (fun _ => .done) →
      program.AllAdvance turn session received.2.2 := by
  intro received done
  cases rows with
  | nil =>
      rw [show received = _ from middle.receiveRefreshed_nothing attached values]
      exact .of_entry found same (advances_of_gone attaches (.inr asked) answered)
  | cons row rest =>
      have changed : received = _ := middle.receiveRefreshed_row attached values row rest
      cases taken : (inst.model.assignAll entry.record
          (inst.plan.assignments row inst.plan.eagerIndices)).2 with
      | error error =>
          rw [taken] at changed
          rw [changed]
          refine .of_entry found same ?_
          rw [EntryChange.apply]
          exact advances_of_refused taken
      | ok _ =>
          rw [taken] at changed
          rw [changed] at done ⊢
          exact .of_entry found same (advances_of_refreshed attaches asked answered taken done)

variable {context : Context} {name : String}

/-- An action that sends a query advances the entries as the step does that receives the rows. -/
theorem afterQuery_advances {α : Type} {columns : List String} {values : List Value}
    {step : List Row → Session → Except Error α × Instance × Session} {answer : α → Reply}
    {outcome : Outcome α} (here : program.sessions[turn.session]? = some session)
    (run : Action.afterQuery inst columns values step
      (program.contextOf session ⟨turn.queries, turn.executions, []⟩) = (outcome, copy, context))
    (calls : (program.take turn).calls = context.connection.calls)
    (done : (program.take turn).outcome = outcome.map answer)
    (advance : ∀ rows middle, middle.identities = session.identities →
      program.Answers turn rows →
      (program.take turn).outcome = (Action.outcome (step rows middle).1).map answer →
        program.AllAdvance turn session (step rows middle).2.2) :
    program.AllAdvance turn session context.session := by
  obtain ⟨interruption, after, same, sent⟩ |
    ⟨rows, middle, same, ⟨replied, sql, params, called⟩, sent⟩ :=
    Action.afterQuery_cases inst columns values step
      (program.contextOf session ⟨turn.queries, turn.executions, []⟩)
  · obtain rfl : after = context := congrArg (·.2.2) (sent.symm.trans run)
    exact .of_identities same.identities
  · have received := sent.symm.trans run
    obtain rfl : _ = outcome := congrArg (·.1) received
    obtain rfl : _ = context := congrArg (·.2.2) received
    exact advance rows middle.session same.identities
      (answers_of_call here replied (calls ▸ called)) done

theorem load_advances {outcome : Outcome Value} (there : program.instances[held]? = some inst)
    (asked : turn.request = .load held name) (here : program.sessions[turn.session]? = some session)
    (run : Action.loadAttribute inst name
      (program.contextOf session ⟨turn.queries, turn.executions, []⟩) = (outcome, copy, context))
    (calls : (program.take turn).calls = context.connection.calls)
    (done : (program.take turn).outcome = outcome.map .value) :
    program.AllAdvance turn session context.session := by
  unfold Action.loadAttribute at run
  generalize read :
    (program.contextOf session ⟨turn.queries, turn.executions, []⟩).session.readRequest inst name =
      decided at run
  match decided, read with
  | (.error _, _), _ | (.ok (.loaded _), _), _ =>
      obtain rfl : _ = context := congrArg (·.2.2) run
      exact .of_identities rfl
  | (.ok (.fetch index indices values), synced), read =>
      obtain ⟨entry, attached, rfl⟩ := Session.attached_of_fetch read
      obtain ⟨found, attaches⟩ := attaches_of_attached there attached
      exact afterQuery_advances here run calls done fun rows middle same answered =>
        receiveFetched_advances found attaches asked same
          ((Session.attached_congr inst same).trans attached) answered

theorem refresh_advances {outcome : Outcome Unit} (there : program.instances[held]? = some inst)
    (asked : turn.request = .refresh held) (here : program.sessions[turn.session]? = some session)
    (run : Action.refresh inst
      (program.contextOf session ⟨turn.queries, turn.executions, []⟩) = (outcome, copy, context))
    (calls : (program.take turn).calls = context.connection.calls)
    (done : (program.take turn).outcome = outcome.map fun _ => .done) :
    program.AllAdvance turn session context.session := by
  unfold Action.refresh at run
  generalize read :
    (program.contextOf session ⟨turn.queries, turn.executions, []⟩).session.refreshRequest inst =
      decided at run
  cases decided with
  | error error =>
      obtain rfl : _ = context := congrArg (·.2.2) run
      exact .of_identities rfl
  | ok values =>
      obtain ⟨entry, attached⟩ := Session.attached_of_refreshRequest read
      obtain ⟨found, attaches⟩ := attaches_of_attached there attached
      exact afterQuery_advances here run calls done fun rows middle same answered =>
        receiveRefreshed_advances found attaches asked same
          ((Session.attached_congr inst same).trans attached) answered

theorem setAttribute_advances {value : Value} (there : program.instances[held]? = some inst) :
    program.AllAdvance turn session (session.setAttribute inst name value).2.2 := by
  obtain ⟨error, failed⟩ | ⟨index, entry, -, -, attached, done⟩ :=
    session.setAttribute_cases inst name value
  · rw [failed]
    exact .of_identities rfl
  · obtain ⟨found, -⟩ := attaches_of_attached there attached
    rw [done]
    refine .of_entry found rfl (.stays (EntryChange.apply_handle _ _) ?_)
    exact Entry.assigning_induction (fun after => after.state = entry.state) rfl fun _ same => same

theorem expire_advances {names : List String} (there : program.instances[held]? = some inst)
    (asked : turn.request = .expire held names)
    (done : (program.take turn).outcome =
      (Action.outcome (session.expire inst names).1).map fun _ => .done) :
    program.AllAdvance turn session (session.expire inst names).2.2 := by
  obtain ⟨error, failed⟩ | ⟨indices, -, ⟨error, failed⟩ | ⟨entry, attached, expired⟩⟩ :=
    session.expire_cases inst names
  · rw [failed]
    exact .of_identities rfl
  · rw [failed]
    exact .of_identities (session.meet_identities inst.model)
  · have met := session.meet_identities inst.model
    obtain ⟨found, attaches⟩ :=
      attaches_of_attached there ((Session.attached_congr inst met).symm.trans attached)
    rw [expired] at done ⊢
    refine .of_entry found met ?_
    have handle := EntryChange.apply_handle entry
    have state (keyIndices : List Nat) : (EntryChange.apply entry
        (if indices.isEmpty then .expireAll keyIndices else .expire indices keyIndices)).state =
          entry.state.expire := by
      split <;> rfl
    cases was : entry.state with
    | persistent =>
        refine .moves (handle _) ?_
        rw [state, was]
        exact .expires was done (.inr ⟨held, inst, names, asked, attaches⟩)
    | expired | deleted =>
        refine .stays (handle _) ?_
        rw [state, was]
        rfl
    | detached => exact absurd was attaches.state

theorem expunge_advances (there : program.instances[held]? = some inst)
    (asked : turn.request = .expunge held) :
    program.AllAdvance turn session (session.expunge inst) := by
  obtain ⟨-, same⟩ | ⟨entry, attached, expunged⟩ := session.expunge_cases inst
  · rw [same]
    exact .of_identities rfl
  · obtain ⟨found, attaches⟩ := attaches_of_attached there (session.attached_eq_ok.mpr attached)
    rw [expunged]
    exact .of_entry found rfl
      (.moves rfl (.detaches attaches.state (.inr ⟨held, inst, asked, attaches⟩)))

end Instances

/-! ## Turns -/

/-- **Every entry of its session advances in a turn**: it stays in its state, moves to another one,
or is replaced. -/
theorem take_advances (here : program.sessions[turn.session]? = some session) :
    ∃ after, (program.take turn).program.sessions[turn.session]? = some after ∧
      program.AllAdvance turn session after := by
  obtain ⟨number, queries, executions, request⟩ := turn
  have taken : program.take ⟨number, queries, executions, request⟩ =
      program.runOn number (program.contextOf session ⟨queries, executions, []⟩) request :=
    step_of_session here _ _
  rw [taken]
  unfold runOn at taken ⊢
  cases request with
  | all model statement =>
      exact loading_settles here (Action.all_loaded _ model statement _)
        (fun instances program => program.holdAll_sessions instances) taken
  | first model statement =>
      refine loading_settles here (Action.first_loaded _ model statement _)
        (fun inst? _ => ?_) taken
      cases inst? <;> rfl
  | allPairs left right statement =>
      exact loading_settles here (Action.allPairs_loaded _ statement left right _)
        (fun pairs program => program.holdPairs_sessions pairs) taken
  | get model value options =>
      refine loading_settles here (Action.getByKey_loaded _ model [value] options _)
        (fun inst? _ => ?_) taken
      cases inst? <;> rfl
  | getByKey model values options =>
      refine loading_settles here (Action.getByKey_loaded _ model values options _)
        (fun inst? _ => ?_) taken
      cases inst? <;> rfl
  | loadRelated parent related statement parents path =>
      dsimp only at taken ⊢
      cases given : parents.mapM (program.instances[·]?) with
      | none => exact ⟨session, here, .of_identities rfl⟩
      | some instances =>
          rw [given] at taken
          exact loading_settles here
            (Action.loadRelated_loaded _ parent statement related instances path _)
            (fun instances program => program.holdAll_sessions instances) taken
  | compile statement =>
      exact loading_settles here (Action.still_compile _ statement).loaded (fun _ _ => rfl) taken
  | begin =>
      refine still_settles here ?_ (fun _ _ => rfl) taken
      exact (Action.beginTransaction_ends _).mono (fun _ _ same => same.identities)
        fun _ _ same => same.identities
  | commit =>
      refine closing_settles here (fun middle config => ?_) taken
      rw [ends_bind, Action.ends_session, config]
      cases expiring : session.config.expireOnCommit with
      | false => exact .inl rfl
      | true => exact .inr ⟨expiring, rfl⟩
  | rollback =>
      exact closing_settles here (fun _ _ => ends_modify.mpr (.inr ⟨trivial, rfl⟩)) taken
  | expireAll =>
      exact modifySession_settles here (fun done => .of_expireAll here rfl trivial done) taken
  | expungeAll => exact modifySession_settles here (fun _ => .of_expungeAll rfl) taken
  | enableTracker | disableTracker | resetTracker =>
      exact modifySession_settles here (fun _ => .of_identities rfl) taken
  | recordLoad table name =>
      exact still_settles here (show Ends _ _ _ _ from rfl) (fun _ _ => rfl) taken
  | load held name =>
      exact performOn_settles here (fun inst there outcome copy context run calls done =>
        load_advances there rfl here run calls done) taken
  | set held name value =>
      refine performOn_settles here (fun inst there outcome copy context run _ _ => ?_) taken
      obtain rfl : _ = context := congrArg (·.2.2) run
      exact setAttribute_advances there
  | expire held names =>
      refine performOn_settles here (fun inst there outcome copy context run _ done => ?_) taken
      obtain rfl : _ = outcome := congrArg (·.1) run
      obtain rfl : _ = context := congrArg (·.2.2) run
      exact expire_advances there rfl done
  | refresh held =>
      exact performOn_settles here (fun inst there outcome copy context run calls done =>
        refresh_advances there rfl here run calls done) taken
  | expunge held =>
      refine performOn_settles here (fun inst there outcome copy context run _ _ => ?_) taken
      obtain rfl : _ = context := congrArg (·.2.2) run
      exact expunge_advances there rfl
  | clone held =>
      dsimp only
      cases program.instances[held]? <;> exact ⟨session, here, .of_identities rfl⟩

end Program

end LazyMapper
