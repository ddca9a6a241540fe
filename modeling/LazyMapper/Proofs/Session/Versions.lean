import LazyMapper.Proofs.Session.Merging
import LazyMapper.Proofs.Session.Tracking

/-!
# Versions order copies

An instance that is attached to an entry is behind it: its copy has no later version, and under the
same version nothing loaded that the entry has not. The version counts everything that unloads an
attribute, so copies taken at different times, and seen through several instances, are ordered by
it. This is so of every instance because the entry it is attached to is the one it is a copy of, as
changes have left it (`Program.Tracks`).

The copy is that of the entry (`Session.Current`) when the instance is made, and when a request
through the instance has succeeded. Each of the functions that such a request ends with takes the
copy of what it puts in place of the entry.
-/

set_option autoImplicit false

namespace LazyMapper

/-! ## Current copies -/

/-- The instance is attached to an entry and has the contents of it. -/
def Session.Current (session : Session) (inst : Instance) : Prop :=
  ∃ entry, session.attached? inst = some entry ∧ inst.record = entry.record ∧
    inst.loaded = entry.loaded ∧ inst.version = entry.version

namespace Session

variable {session : Session} {inst : Instance} {entry : Entry}

theorem current_sync (attached : session.attached inst = .ok entry) :
    session.Current (inst.sync entry) := by
  refine ⟨entry, ?_, rfl, rfl, rfl⟩
  rw [(Instance.Resumes.sync inst entry).attached?_eq]
  exact session.attached_eq_ok.mp attached

/-- The copy of what is put in place of an entry, unless it is detached. -/
theorem current_change {change : EntryChange} (attached : session.attached inst = .ok entry)
    (other : change ≠ .detach) :
    (session.withEntry inst.key (change.apply entry)).Current (inst.sync (change.apply entry)) := by
  obtain ⟨-, handle, state⟩ := session.attached?_eq_some.mp (session.attached_eq_ok.mp attached)
  refine current_sync ((attached_eq_ok _).mpr ((attached?_eq_some _).mpr ⟨?_, ?_, ?_⟩))
  · exact (session.find?_withEntry inst.key inst.key _).trans (if_pos rfl)
  · exact (change.apply_handle entry).trans handle
  · exact EntryChange.state_ne_detached state other

theorem Current.countLoad (current : session.Current inst) (counted : Instance) (index : Nat) :
    (session.countLoad counted index).Current inst := by
  obtain ⟨tracker, same⟩ := session.countLoad_eq counted index
  rw [same]
  exact current

/-- An instance that takes the copy of an entry as a row has left it. -/
theorem current_ofEntry {model : Model} {key : Key} {plan : LoadPlan}
    (there : session.identities.find? key = some entry) (live : entry.state.isLive = true) :
    session.Current (.ofEntry model key plan entry) := by
  refine ⟨entry, session.attached?_eq_some.mpr ⟨there, rfl, fun detached => ?_⟩, rfl, rfl, rfl⟩
  rw [detached] at live
  cases live

end Session

/-! ## Requests through an instance -/

namespace Action

/-- An action on an instance that succeeds leaves the instance with the contents of its entry. -/
def OnInstance.Syncs {α : Type} (run : Outcome α × Instance × Context) : Prop :=
  ∀ result, run.1 = .ok result → run.2.2.session.Current run.2.1

variable {α : Type} {inst : Instance} {context : Context}

theorem onInstance_syncs {step : Session → Except Error α × Instance × Session}
    (synced : ∀ result, (step context.session).1 = .ok result →
      (step context.session).2.2.Current (step context.session).2.1) :
    OnInstance.Syncs (onInstance step context) := by
  unfold onInstance OnInstance.Syncs
  dsimp only
  generalize step context.session = run at synced ⊢
  obtain ⟨result, copy, session⟩ := run
  cases result with
  | error error => exact nofun
  | ok value => exact fun _ _ => synced value rfl

theorem afterQuery_syncs {columns : List String} {key : List Value}
    {step : List Row → Session → Except Error α × Instance × Session}
    (synced : ∀ rows context, OnInstance.Syncs (onInstance (step rows) context)) :
    OnInstance.Syncs (afterQuery inst columns key step context) := by
  unfold afterQuery
  split
  · exact nofun
  · exact synced _ _

theorem receiveFetched_syncs {name : String} {index : Nat} {indices : List Nat}
    {key : List Value} {rows : List Row} :
    OnInstance.Syncs (onInstance
      (fun session => session.receiveFetched inst name index indices key rows) context) := by
  refine onInstance_syncs fun value ok => ?_
  cases attached : context.session.attached inst with
  | error error =>
      unfold Session.receiveFetched at ok
      rw [attached] at ok
      cases ok
  | ok entry =>
      cases rows with
      | nil =>
          unfold Session.receiveFetched at ok
          rw [attached] at ok
          cases ok
      | cons row rest =>
          rw [Session.receiveFetched_row _ attached] at ok ⊢
          split at ok
          · cases ok
          · refine Session.Current.countLoad ?_ inst index
            exact Session.current_change attached nofun

theorem loadAttribute_syncs (name : String) :
    OnInstance.Syncs (loadAttribute inst name context) := by
  unfold loadAttribute
  obtain ⟨error, failed⟩ | ⟨index, entry, position, attached, cases⟩ :=
    context.session.readRequest_cases inst name
  · rw [failed]
    exact nofun
  rcases cases with ⟨error, failed⟩ | ⟨-, loaded⟩ | ⟨-, fetched⟩
  · rw [failed]
    exact nofun
  · rw [loaded]
    exact fun _ _ => Session.current_sync attached
  · rw [fetched]
    exact afterQuery_syncs fun _ _ => receiveFetched_syncs

theorem receiveRefreshed_syncs {key : List Value} {rows : List Row} :
    OnInstance.Syncs (onInstance (fun session => session.receiveRefreshed inst key rows)
      context) := by
  refine onInstance_syncs fun result ok => ?_
  cases attached : context.session.attached inst with
  | error error =>
      unfold Session.receiveRefreshed at ok
      rw [attached] at ok
      cases ok
  | ok entry =>
      cases rows with
      | nil =>
          rw [Session.receiveRefreshed_nothing _ attached] at ok
          cases ok
      | cons row rest =>
          rw [Session.receiveRefreshed_row _ attached] at ok ⊢
          split at ok
          · cases ok
          · exact Session.current_change attached nofun

theorem refresh_syncs : OnInstance.Syncs (refresh inst context) := by
  unfold refresh
  split
  · exact nofun
  · exact afterQuery_syncs fun _ _ => receiveRefreshed_syncs

theorem setAttribute_syncs (name : String) (value : Value) :
    OnInstance.Syncs (onInstance (·.setAttribute inst name value) context) := by
  refine onInstance_syncs fun result ok => ?_
  obtain ⟨error, failed⟩ | ⟨index, entry, -, -, attached, done⟩ :=
    context.session.setAttribute_cases inst name value
  · rw [failed] at ok
    cases ok
  · rw [done]
    exact Session.current_change attached nofun

theorem expire_syncs (names : List String) :
    OnInstance.Syncs (onInstance (·.expire inst names) context) := by
  refine onInstance_syncs fun result ok => ?_
  obtain ⟨error, failed⟩ | ⟨indices, -, ⟨error, failed⟩ | ⟨entry, attached, done⟩⟩ :=
    context.session.expire_cases inst names
  · rw [failed] at ok
    cases ok
  · rw [failed] at ok
    cases ok
  · rw [done]
    refine Session.current_change attached ?_
    split <;> exact nofun

/-! ## Instances made -/

variable [Hashable Digest]

theorem mergeRow_current (model : Model) (plan : LoadPlan) (row : Row) (context : Context) :
    Ends (mergeRow model plan row) context (fun made after => after.session.Current made)
      fun _ _ => True := by
  refine (mergeRow_ends model plan row context).mono ?_ fun _ _ _ => trivial
  rintro _ after ⟨key, entry, -, rfl, merges⟩
  exact Session.current_ofEntry ((merges.find?_eq key).trans (if_pos rfl)) merges.live

/-- The instance of a primary key is a copy of the live entry that answers, or of the one that the
row found is merged into. -/
theorem getByKey_current (schema : Schema) (model : Model) (values : List Value)
    (options : List LoaderOption) (context : Context) :
    Ends (getByKey schema model values options) context
      (fun made? after => ∀ made ∈ made?, after.session.Current made) fun _ _ => True := by
  unfold getByKey
  dsimp only
  split
  · exact trivial
  refine .bind_any (fun statement context => ?_) fun _ _ => trivial
  refine .bind_any (fun compiled context => ?_) fun _ _ => trivial
  refine .bind_any (fun plan context => ?_) fun _ _ => trivial
  rw [ends_bind, ends_session]
  split
  · rename_i entry hit
    obtain ⟨there, live⟩ := Option.filter_eq_some_iff.mp hit
    rintro made ⟨⟩
    exact Session.current_ofEntry there live
  · refine .bind_any (fun rows context => ?_) fun _ _ => trivial
    cases rows with
    | nil => exact nofun
    | cons row rest =>
        rw [ends_bind]
        refine (mergeRow_current model plan row context).mono ?_ fun _ _ _ => trivial
        rintro inst after current made ⟨⟩
        exact current

end Action

namespace Program

variable {models : String → Model} {program : Program} {session : Session} {number held : Nat}
  {inst : Instance} {turn : Turn} {reply : Reply}

/-- The instance of a number is held with the contents of the entry that it is attached to in a
session. -/
def HoldsCurrent (program : Program) (number held : Nat) : Prop :=
  ∃ copy session, program.instances[held]? = some copy ∧
    program.sessions[number]? = some session ∧ session.Current copy

theorem performOn_holdsCurrent {α : Type} {action : Instance → Action.OnInstance α}
    {connection : Connection} {answer : α → Reply} (here : program.sessions[number]? = some session)
    (there : program.instances[held]? = some inst)
    (syncs : Action.OnInstance.Syncs (action inst (program.contextOf session connection)))
    (ok : (program.performOn number (program.contextOf session connection) held action
      answer).outcome = .ok reply) :
    (program.performOn number (program.contextOf session connection) held action
      answer).program.HoldsCurrent number held := by
  cases run : action inst (program.contextOf session connection) with
  | mk outcome left =>
      obtain ⟨copy, after⟩ := left
      rw [performOn_of_instance there run] at ok ⊢
      rw [run] at syncs
      cases outcome with
      | error interruption => cases ok
      | ok result =>
          refine ⟨copy, after.session, ?_, ?_, syncs result rfl⟩
          · exact List.getElem?_set_self (List.getElem?_eq_some_iff.mp there).1
          · exact List.getElem?_set_self (List.getElem?_eq_some_iff.mp here).1

variable [Hashable Digest]

/-- **A request through an instance that succeeds leaves the instance with the contents of its
entry.** -/
theorem take_holdsCurrent (here : program.sessions[turn.session]? = some session)
    (through : turn.request.through? = some held) (there : program.instances[held]? = some inst)
    (ok : (program.take turn).outcome = .ok reply) :
    (program.take turn).program.HoldsCurrent turn.session held := by
  obtain ⟨number, queries, executions, request⟩ := turn
  unfold take at ok ⊢
  rw [step_of_session here] at ok ⊢
  unfold runOn at ok ⊢
  cases request with
  | load _ name =>
      obtain rfl := Option.some.inj through
      exact performOn_holdsCurrent here there (Action.loadAttribute_syncs name) ok
  | set _ name value =>
      obtain rfl := Option.some.inj through
      exact performOn_holdsCurrent here there (Action.setAttribute_syncs name value) ok
  | expire _ names =>
      obtain rfl := Option.some.inj through
      exact performOn_holdsCurrent here there (Action.expire_syncs names) ok
  | refresh =>
      obtain rfl := Option.some.inj through
      exact performOn_holdsCurrent here there Action.refresh_syncs ok
  | _ => cases through

/-- **Versions order the copies of an entry.** Take any run of typed requests on any number of
sessions, and any instance. Where it is attached, its copy has no later version than the entry, and
nothing loaded that the entry has not under the same version. A request that reads, writes, expires
or refreshes it and succeeds leaves it with the contents of the entry. So does what makes instances:
a row that is merged, and a lookup by key that finds one. -/
theorem versions_order {schema : Schema} (declared : schema.Typed models) {configs : List Config}
    {turns : List Turn} (typed : ∀ turn ∈ turns, turn.request.Typed models)
    (there : ((ofConfigs schema configs).after turns).instances[held]? = some inst) :
    let program := (ofConfigs schema configs).after turns
    (∀ session ∈ program.sessions, ∀ entry, session.attached? inst = some entry →
      inst.Trails entry) ∧
    (∀ (turn : Turn) session reply, program.sessions[turn.session]? = some session →
      turn.request.through? = some held → (program.take turn).outcome = .ok reply →
        (program.take turn).program.HoldsCurrent turn.session held) ∧
    (∀ model plan row context made after,
      (Action.mergeRow model plan row).run.run context = (.ok made, after) →
        after.session.Current made) ∧
    ∀ model key options context made after,
      (Action.getByKey schema model key options).run.run context = (.ok (some made), after) →
        after.session.Current made := by
  intro program
  refine ⟨?_, fun turn session reply here through ok =>
    take_holdsCurrent here through there ok, ?_, ?_⟩
  · intro session member entry attached
    obtain ⟨number, here⟩ := List.mem_iff_getElem?.mp member
    have tracked : program.Tracked models _ := (tracked_ofConfigs declared configs).after typed
    obtain ⟨owner, -, tracks⟩ := tracked.exists_owner there
    obtain ⟨found, handle, -⟩ := session.attached?_eq_some.mp attached
    exact (tracks.entries (entryAt?_eq_some.mpr ⟨session, here, found⟩) handle).2.2
  · intro model plan row context made after run
    have current := Action.mergeRow_current model plan row context
    unfold Ends at current
    rw [run] at current
    exact current
  · intro model key options context made after run
    have current := Action.getByKey_current schema model key options context
    unfold Ends at current
    rw [run] at current
    exact current made rfl

end Program

/-- A book was loaded and copied, and its title expired through the first instance. The copy is one
version behind, and takes the contents of the entry when it is refreshed. -/
theorem Catalogue.bookshop_orders_copies :
    let turns : List Turn := [
      ⟨0, [.ok [bookRow "Emma"]], [], everything book⟩,
      ⟨0, [], [], .clone 0⟩,
      ⟨0, [], [], .expire 0 ["title"]⟩]
    let program := (Program.ofConfigs schema [.default]).after turns
    ∃ copy session entry, program.instances[1]? = some copy ∧
      program.sessions[0]? = some session ∧ session.attached? copy = some entry ∧
      (copy.version, entry.version) = (0, 1) ∧ copy.Trails entry ∧
      (program.take
        ⟨0, [.ok [bookRow "Persuasion"]], [], .refresh 1⟩).program.HoldsCurrent 0 1 := by
  intro turns program
  have typed : ∀ turn ∈ turns, turn.request.Typed modelOf := by
    intro turn member
    simp only [turns, List.mem_cons, List.not_mem_nil, or_false] at member
    rcases member with rfl | rfl | rfl
    · exact everything_typed book rfl
    · trivial
    · trivial
  have versions : (program.instances[1]?).bind (fun copy => (program.sessions[0]?).bind
      fun session => (session.attached? copy).map fun entry => (copy.version, entry.version)) =
        some (0, 1) := by
    decide +kernel
  obtain ⟨copy, held, versions⟩ := Option.bind_eq_some_iff.mp versions
  obtain ⟨session, here, versions⟩ := Option.bind_eq_some_iff.mp versions
  obtain ⟨entry, attached, versions⟩ := Option.map_eq_some_iff.mp versions
  have ends : (program.take ⟨0, [.ok [bookRow "Persuasion"]], [], .refresh 1⟩).outcome.isOk := by
    decide +kernel
  obtain ⟨trails, synced, -⟩ := Program.versions_order schema_typed typed held
  refine ⟨copy, session, entry, held, here, attached, versions,
    trails session (List.mem_of_getElem? here) entry attached, ?_⟩
  cases refreshed : (program.take ⟨0, [.ok [bookRow "Persuasion"]], [], .refresh 1⟩).outcome with
  | error interruption =>
      rw [refreshed] at ends
      cases ends
  | ok reply => exact synced _ session reply here rfl refreshed

end LazyMapper
