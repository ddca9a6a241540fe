import LazyMapper.Proofs.Session.Handling
import LazyMapper.Proofs.Session.Loading

/-!
# The histories of requests

Every request of a program adds allowed events to its session, and the instances that the program
holds afterwards were held before or are issued by one of them (`Program.step_history`). Requests
that name a session or an instance that there is not change nothing.
-/

set_option autoImplicit false

namespace LazyMapper

namespace Program

/-- The instances that a program holds after a request with given events. Those from before stay
where they are, each perhaps with a new copy of its entry. Behind them are instances that the events
issue, or a copy if the request is for one. -/
structure Holds (program : Program) (request : Request) (events : List Event)
    (instances : List Instance) : Prop where
  kept : ∀ {number : Nat} {old : Instance}, program.instances[number]? = some old →
    ∃ inst, instances[number]? = some inst ∧
      (inst = old ∨ inst.Resumes old ∧ .issued inst ∈ events)
  made : ∀ {number : Nat} {inst : Instance}, instances[number]? = some inst →
    program.instances.length ≤ number → .issued inst ∈ events ∨
      ∃ copied, request = .clone copied ∧ program.instances[copied]? = some inst

/-- What a request leaves behind when its events have led to a context. -/
structure Step.Leaves (step : Step) (program : Program) (request : Request) (number : Nat)
    (events : List Event) (context : Context) : Prop where
  schema : step.program.schema = program.schema
  sessions : step.program.sessions = program.sessions.set number context.session
  nextHandle : step.program.nextHandle = context.nextHandle
  configured : step.program.configured = context.configured
  instances : program.Holds request events step.program.instances
  calls : step.calls = context.connection.calls ∨ events = [] ∧ step.calls = []

namespace Holds

variable {program : Program} {request : Request} {events : List Event}
  {instances more : List Instance} {inst : Instance} {number : Nat}

/-- Instances behind those from before. -/
theorem append (which : ∀ inst ∈ more, .issued inst ∈ events ∨
      ∃ copied, request = .clone copied ∧ program.instances[copied]? = some inst) :
    program.Holds request events (program.instances ++ more) where
  kept := fun {number old} held => by
    refine ⟨old, ?_, .inl rfl⟩
    rw [List.getElem?_append_left (List.getElem?_eq_some_iff.mp held).1, held]
  made := fun {number inst} held behind => by
    rw [List.getElem?_append_right behind] at held
    exact which inst (List.mem_of_getElem? held)

theorem refl (program : Program) : program.Holds request events program.instances where
  kept := fun {number old} held => ⟨old, held, .inl rfl⟩
  made := fun {number inst} held behind => by
    have inside := (List.getElem?_eq_some_iff.mp held).1
    omega

/-- One of the instances as an action on it has left it. -/
theorem set {copy : Instance} (held : program.instances[number]? = some inst)
    (left : copy = inst ∨ copy.Resumes inst ∧ .issued copy ∈ events) :
    program.Holds request events (program.instances.set number copy) where
  kept := fun {other old} there => by
    by_cases same : number = other
    · subst same
      obtain rfl := Option.some.inj (held.symm.trans there)
      exact ⟨copy, List.getElem?_set_self (List.getElem?_eq_some_iff.mp held).1, left⟩
    · exact ⟨old, (List.getElem?_set_ne same).trans there, .inl rfl⟩
  made := fun {other _} there behind => by
    have inside := (List.getElem?_eq_some_iff.mp there).1
    rw [List.length_set] at inside
    omega

/-- An instance was held before the request, or is issued by it. -/
theorem mem (holds : program.Holds request events instances) (member : inst ∈ instances) :
    inst ∈ program.instances ∨ .issued inst ∈ events := by
  obtain ⟨number, held⟩ := List.mem_iff_getElem?.mp member
  by_cases inside : number < program.instances.length
  · obtain ⟨left, there, same | ⟨-, issued⟩⟩ :=
      holds.kept (List.getElem?_eq_getElem inside)
    · obtain rfl := Option.some.inj (there.symm.trans held)
      rw [same]
      exact .inl (List.getElem_mem inside)
    · obtain rfl := Option.some.inj (there.symm.trans held)
      exact .inr issued
  · rcases holds.made held (Nat.not_lt.mp inside) with issued | ⟨copied, -, there⟩
    · exact .inr issued
    · exact .inl (List.mem_of_getElem? there)

end Holds

/-- The context in which a request of a program starts. -/
def contextOf (program : Program) (session : Session) (connection : Connection) : Context :=
  ⟨session, connection, program.nextHandle, program.configured⟩

/-! ## Instances held -/

/-- The program holding more instances. -/
def holding (program : Program) (more : List Instance) : Program :=
  { program with instances := program.instances ++ more }

theorem holdAll_eq (program : Program) (more : List Instance) :
    (program.holdAll more).2 = program.holding more := by
  induction more generalizing program with
  | nil => simp [holdAll, holding]
  | cons inst rest ih => simp [holdAll, hold, ih, holding]

theorem holdPairs_eq (program : Program) (more : List (Instance × Instance)) :
    (program.holdPairs more).2 = program.holding (more.flatMap fun pair => [pair.1, pair.2]) := by
  induction more generalizing program with
  | nil => simp [holdPairs, holding]
  | cons pair rest ih => simp [holdPairs, hold, ih, holding]

theorem holdAll_sessions (program : Program) (more : List Instance) :
    (program.holdAll more).2.sessions = program.sessions := by
  rw [holdAll_eq]
  rfl

theorem holdPairs_sessions (program : Program) (more : List (Instance × Instance)) :
    (program.holdPairs more).2.sessions = program.sessions := by
  rw [holdPairs_eq]
  rfl

/-! ## Running requests -/

variable [Hashable Digest]

theorem step_of_session {program : Program} {number : Nat} {session : Session}
    (here : program.sessions[number]? = some session) (connection : Connection)
    (request : Request) :
    program.step number connection request =
      program.runOn number (program.contextOf session connection) request := by
  unfold step
  rw [here]
  rfl

theorem step_of_no_session {program : Program} {number : Nat}
    (missing : program.sessions[number]? = none) (connection : Connection) (request : Request) :
    program.step number connection request = ⟨.ok .unknown, [], program⟩ := by
  unfold step
  rw [missing]

omit [Hashable Digest] in
theorem performOn_of_instance {α : Type} {program : Program} {number held : Nat}
    {context after : Context} {inst copy : Instance} {outcome : Outcome α}
    {action : Instance → Action.OnInstance α} (there : program.instances[held]? = some inst)
    (run : action inst context = (outcome, copy, after)) (answer : α → Reply) :
    program.performOn number context held action answer =
      ⟨outcome.map answer, after.connection.calls,
        { program.withContext number after with
          instances := program.instances.set held copy }⟩ := by
  unfold performOn
  rw [there]
  dsimp only
  rw [run]
  rfl

/-! ## Requests by kind -/

variable {models : String → Model} {program : Program} {request : Request} {number : Nat}
  {session : Session} {connection : Connection}

omit [Hashable Digest] in
theorem leaves_unchanged (here : program.sessions[number]? = some session) {reply : Reply}
    {calls : List Call} (silent : calls = []) :
    Step.Leaves ⟨.ok reply, calls, program⟩ program request number []
      (program.contextOf session connection) where
  schema := rfl
  sessions := by
    obtain ⟨inside, rfl⟩ := List.getElem?_eq_some_iff.mp here
    exact (List.set_getElem_self inside).symm
  nextHandle := rfl
  configured := rfl
  instances := .refl program
  calls := .inr ⟨rfl, silent⟩

/-- An action whose instances the program then holds. -/
theorem perform_leaves {α : Type} {action : Action α}
    {answer : α → Program → Reply × Program} (given : α → List Instance)
    (follows : action.Follows (program.Allows models request) []
      (program.contextOf session connection)
      fun result past _ => ∀ inst ∈ given result, .issued inst ∈ past)
    (holds : ∀ result program, (answer result program).2 = program.holding (given result)) :
    ∃ events context, History (program.Allows models request) []
        (program.contextOf session connection) events context ∧
      (program.perform number (program.contextOf session connection) action answer).Leaves
        program request number events context := by
  unfold perform
  unfold Action.Follows Ends at follows
  generalize action.run.run (program.contextOf session connection) = run at follows ⊢
  obtain ⟨outcome, context⟩ := run
  cases outcome with
  | error interruption =>
      obtain ⟨events, history⟩ := follows
      exact ⟨events, context, history, rfl, rfl, rfl, rfl, .refl program, .inl rfl⟩
  | ok result =>
      obtain ⟨events, history, issued⟩ := follows
      dsimp only
      have held := holds result (program.withContext number context)
      generalize answer result (program.withContext number context) = answered at held ⊢
      obtain ⟨reply, after⟩ := answered
      obtain rfl : after = _ := held
      exact ⟨events, context, history, rfl, rfl, rfl, rfl,
        .append fun inst member => .inl (issued inst member), .inl rfl⟩

/-- An action on an instance, which the program then holds as the action left it. -/
theorem performOn_leaves {α : Type} {held : Nat}
    {action : Instance → Action.OnInstance α} {answer : α → Reply}
    (here : program.sessions[number]? = some session)
    (follows : ∀ inst, program.instances[held]? = some inst →
      Action.OnInstance.Follows (program.Allows models request) inst []
        (program.contextOf session connection)
        (action inst (program.contextOf session connection))) :
    ∃ events context, History (program.Allows models request) []
        (program.contextOf session connection) events context ∧
      (program.performOn number (program.contextOf session connection) held action
        answer).Leaves program request number events context := by
  unfold performOn
  cases there : program.instances[held]? with
  | none => exact ⟨[], _, .nil, leaves_unchanged here rfl⟩
  | some inst =>
      obtain ⟨events, history, given⟩ := follows inst there
      exact ⟨events, _, history, rfl, rfl, rfl, rfl, .set there given, .inl rfl⟩

/-! ## Every request -/

/-- An event that changes the session alone and gives out nothing. -/
theorem modifySession_leaves (change : Session → Session) {event : Event}
    (allowed : program.Allows models request [] (program.contextOf session connection) event)
    (same : event.apply (program.contextOf session connection) =
      { program.contextOf session connection with session := change session }) :
    ∃ events context, History (program.Allows models request) []
        (program.contextOf session connection) events context ∧
      (program.perform number (program.contextOf session connection)
        (Action.modifySession change) fun _ program => (.done, program)).Leaves program request
          number events context :=
  perform_leaves (fun _ => []) (.modifySession allowed same (by simp))
    fun _ _ => by simp [holding]

/-- An action that gives out nothing. -/
theorem done_leaves {action : Action Unit}
    (follows : action.Follows (program.Allows models request) []
      (program.contextOf session connection) fun _ _ _ => True) :
    ∃ events context, History (program.Allows models request) []
        (program.contextOf session connection) events context ∧
      (program.perform number (program.contextOf session connection) action
        fun _ program => (.done, program)).Leaves program request number events context :=
  perform_leaves (fun _ => []) (follows.mono fun _ _ _ _ => by simp)
    fun _ _ => by simp [holding]

/-- An action that gives out a list of instances. -/
theorem listed_leaves {action : Action (List Instance)}
    (follows : action.Follows (program.Allows models request) []
      (program.contextOf session connection)
      fun instances past _ => ∀ inst ∈ instances, .issued inst ∈ past) :
    ∃ events context, History (program.Allows models request) []
        (program.contextOf session connection) events context ∧
      (program.perform number (program.contextOf session connection) action
        fun instances program => (program.holdAll instances).map .instances id).Leaves
          program request number events context :=
  perform_leaves id follows fun instances program => program.holdAll_eq instances

/-- An action that gives out at most one instance. -/
theorem optional_leaves {action : Action (Option Instance)}
    (follows : action.Follows (program.Allows models request) []
      (program.contextOf session connection)
      fun inst? past _ => ∀ inst ∈ inst?, .issued inst ∈ past) :
    ∃ events context, History (program.Allows models request) []
        (program.contextOf session connection) events context ∧
      (program.perform number (program.contextOf session connection) action
        fun inst? program =>
          match inst? with
          | none => (.instance? none, program)
          | some inst => (program.hold inst).map (fun number => .instance? (some number)) id).Leaves
          program request number events context := by
  refine perform_leaves Option.toList (follows.mono ?_) ?_
  · intro inst? past _ issued inst member
    exact issued inst (Option.mem_toList.mp member)
  · intro inst? program
    cases inst? with
    | none => simp [holding]
    | some inst => rfl

/-- **Every request has a history of allowed events**, by which its session has changed and which
issues the instances that the program holds then. -/
theorem step_history (declared : program.schema.Typed models) (typed : request.Typed models)
    (here : program.sessions[number]? = some session) (connection : Connection) :
    ∃ events context, History (program.Allows models request) []
        (program.contextOf session connection) events context ∧
      (program.step number connection request).Leaves program request number events context := by
  rw [step_of_session here]
  unfold runOn
  cases request with
  | all model statement => exact listed_leaves (Action.all_follows declared typed.1 typed.2 rfl)
  | first model statement =>
      exact optional_leaves (Action.first_follows declared typed.1 typed.2 rfl)
  | allPairs left right statement =>
      dsimp only
      exact perform_leaves _ (Action.allPairs_follows declared typed.1 typed.2.1 typed.2.2 rfl)
        fun pairs program => program.holdPairs_eq pairs
  | get model key options => exact optional_leaves (Action.getByKey_follows declared typed rfl)
  | getByKey model key options =>
      exact optional_leaves (Action.getByKey_follows declared typed rfl)
  | loadRelated parent related statement parents path =>
      dsimp only
      split
      · exact ⟨[], _, .nil, leaves_unchanged here rfl⟩
      · exact listed_leaves (Action.loadRelated_follows declared typed.2.1 typed.2.2 rfl)
  | compile statement =>
      dsimp only
      exact perform_leaves (fun _ => [])
        ((Action.compile_follows declared typed).mono fun _ _ _ _ => by simp)
        fun _ _ => by simp [holding]
  | begin => exact done_leaves (Action.beginTransaction_follows.mono fun _ _ _ _ => trivial)
  | commit =>
      refine done_leaves ((Action.endTransaction_follows (.inl ⟨rfl, rfl⟩)).bind ?_)
      rintro _ past context ⟨-, same⟩
      refine .session ?_
      cases expiring : context.session.config.expireOnCommit with
      | false => exact .pure trivial
      | true => exact .modifySession (.expiredAll (.inr (.inr ⟨rfl, expiring⟩))) rfl trivial
  | rollback =>
      refine done_leaves ((Action.endTransaction_follows (.inr ⟨rfl, rfl⟩)).bind ?_)
      rintro _ past context ⟨-, same⟩
      exact .modifySession (.expiredAll (.inr (.inl rfl))) rfl trivial
  | expireAll => exact modifySession_leaves Session.expireAll (.expiredAll (.inl rfl)) rfl
  | expungeAll => exact modifySession_leaves Session.expungeAll (.detachedAll rfl) rfl
  | enableTracker => exact modifySession_leaves (fun session =>
      { session with tracker := session.tracker.enable }) (.counted session.tracker.enable) rfl
  | disableTracker => exact modifySession_leaves (fun session =>
      { session with tracker := session.tracker.disable }) (.counted session.tracker.disable) rfl
  | resetTracker => exact modifySession_leaves (fun session =>
      { session with tracker := session.tracker.reset }) (.counted session.tracker.reset) rfl
  | recordLoad table name =>
      dsimp only
      refine perform_leaves (fun _ => []) (Action.Follows.session ?_)
        fun _ _ => by simp [holding]
      exact Action.Follows.bind (Q := fun _ _ _ => True)
        (.modifySession (.counted (session.tracker.record table name).2) rfl trivial)
        fun _ _ _ _ => .pure (by simp)
  | load held name =>
      exact performOn_leaves here fun inst => Action.loadAttribute_follows rfl
  | set held name value =>
      exact performOn_leaves here fun inst => Action.setAttribute_follows rfl
  | expire held names =>
      exact performOn_leaves here fun inst => Action.expire_follows rfl
  | refresh held => exact performOn_leaves here fun inst => Action.refresh_follows rfl
  | expunge held => exact performOn_leaves here fun inst => Action.expunge_follows rfl
  | clone held =>
      dsimp only
      cases there : program.instances[held]? with
      | none => exact ⟨[], _, .nil, leaves_unchanged here rfl⟩
      | some inst =>
          have same : Step.Leaves ⟨.ok .done, [], program⟩ program (.clone held) number []
              (program.contextOf session connection) := leaves_unchanged here rfl
          refine ⟨[], _, .nil, rfl, same.sessions, rfl, rfl, .append fun other member => ?_,
            .inr ⟨rfl, rfl⟩⟩
          obtain rfl := List.mem_singleton.mp member
          exact .inr ⟨held, rfl, there⟩

end Program

end LazyMapper
