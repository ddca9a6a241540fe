import LazyMapper.Session.Access
import LazyMapper.Session.Query

/-!
# Programs

A program has several sessions, which share the supply of handle numbers and the mappings found
valid, and holds the instances that the sessions have returned, numbered in the order of their
return. It runs one request after the other, each on one session and with a script for the
connection. A request on an instance leaves the instance as the session returned it, also when
it fails.
-/

set_option autoImplicit false

namespace LazyMapper

/-- A request to a session. Instances are named by their number. -/
inductive Request where
  | all (model : Model) (statement : Statement)
  | first (model : Model) (statement : Statement)
  | allPairs (left right : Model) (statement : Statement)
  | get (model : Model) (key : Value) (options : List LoaderOption)
  | getByKey (model : Model) (key : List Value) (options : List LoaderOption)
  | loadRelated (parent related : Model) (statement : Statement) (parents : List Nat)
    (path : String)
  | compile (statement : Statement)
  | begin
  | commit
  | rollback
  | expireAll
  | expungeAll
  | enableTracker
  | disableTracker
  | resetTracker
  | recordLoad (table name : String)
  | load (number : Nat) (name : String)
  | set (number : Nat) (name : String) (value : Value)
  | expire (number : Nat) (names : List String)
  | refresh (number : Nat)
  | expunge (number : Nat)
  /-- Makes a copy of an instance. -/
  | clone (number : Nat)

/-- The answer to a request. -/
inductive Reply where
  | done
  /-- The numbers of the instances returned. -/
  | instances (numbers : List Nat)
  | pairs (numbers : List (Nat × Nat))
  | instance? (number? : Option Nat)
  | compiled (statement : CompiledStatement)
  | value (value : Value)
  /-- The number of a copy of an instance. -/
  | copied (number : Nat)
  /-- A lazy load was counted, and made the count of its attribute reach the threshold or not. -/
  | recorded (reached : Bool)
  /-- The request names a session or an instance that there is not. -/
  | unknown

/-- Sessions and the instances they have returned. -/
structure Program where
  schema : Schema
  sessions : List Session
  instances : List Instance
  nextHandle : Nat
  configured : Configured

namespace Program

/-- The program whose sessions have done nothing yet. -/
def ofConfigs (schema : Schema) (configs : List Config) : Program :=
  ⟨schema, configs.map Session.ofConfig, [], 1, []⟩

/-- The program with a request's context put back. -/
def withContext (program : Program) (session : Nat) (context : Context) : Program :=
  { program with
    sessions := program.sessions.set session context.session
    nextHandle := context.nextHandle
    configured := context.configured }

/-- The program holding one more instance, and the number of it. -/
def hold (program : Program) (inst : Instance) : Nat × Program :=
  (program.instances.length, { program with instances := program.instances ++ [inst] })

/-- The program holding more instances, and the numbers of these. -/
def holdAll (program : Program) : List Instance → List Nat × Program
  | [] => ([], program)
  | inst :: rest =>
    let (number, program) := program.hold inst
    let (numbers, program) := program.holdAll rest
    (number :: numbers, program)

/-- The program holding more pairs of instances, and the numbers of these. -/
def holdPairs (program : Program) : List (Instance × Instance) → List (Nat × Nat) × Program
  | [] => ([], program)
  | (left, right) :: rest =>
    let (leftNumber, program) := program.hold left
    let (rightNumber, program) := program.hold right
    let (numbers, program) := program.holdPairs rest
    ((leftNumber, rightNumber) :: numbers, program)

/-- How a request went: its outcome, the calls it made and the program afterwards. -/
structure Step where
  outcome : Outcome Reply
  calls : List Call
  program : Program

/-- Runs an action on a session. What it returns is held by the program and answered. -/
def perform {α : Type} (program : Program) (session : Nat) (context : Context)
    (action : Action α) (answer : α → Program → Reply × Program) : Step :=
  match action.run.run context with
  | (.error interruption, context) =>
    ⟨.error interruption, context.connection.calls, program.withContext session context⟩
  | (.ok result, context) =>
    let (reply, program) := answer result (program.withContext session context)
    ⟨.ok reply, context.connection.calls, program⟩

/-- Runs an action on an instance, which is put back as the action left it. -/
def performOn {α : Type} (program : Program) (session : Nat) (context : Context) (number : Nat)
    (action : Instance → Action.OnInstance α) (answer : α → Reply) : Step :=
  match program.instances[number]? with
  | none => ⟨.ok .unknown, [], program⟩
  | some inst =>
    let (outcome, inst, context) := action inst context
    let program := program.withContext session context
    ⟨outcome.map answer, context.connection.calls,
      { program with instances := program.instances.set number inst }⟩

/-- Runs a request on a session. -/
def runOn [Hashable Digest] (program : Program) (session : Nat) (context : Context)
    (request : Request) : Step :=
  let schema := program.schema
  let done (action : Action Unit) : Step :=
    program.perform session context action fun _ program => (.done, program)
  let listed (action : Action (List Instance)) : Step :=
    program.perform session context action fun instances program =>
      (program.holdAll instances).map .instances id
  let optional (action : Action (Option Instance)) : Step :=
    program.perform session context action fun inst? program =>
      match inst? with
      | none => (.instance? none, program)
      | some inst => (program.hold inst).map (fun number => .instance? (some number)) id
  match request with
  | .all model statement => listed (Action.all schema model statement)
  | .first model statement => optional (Action.first schema model statement)
  | .allPairs left right statement =>
    program.perform session context (Action.allPairs schema left right statement)
      fun pairs program => (program.holdPairs pairs).map .pairs id
  | .get model key options => optional (Action.get schema model key options)
  | .getByKey model key options => optional (Action.getByKey schema model key options)
  | .loadRelated parent related statement parents path =>
    match parents.mapM (program.instances[·]?) with
    | none => ⟨.ok .unknown, [], program⟩
    | some instances =>
      listed (Action.loadRelated schema parent related statement instances path)
  | .compile statement =>
    program.perform session context (Action.compile schema statement) fun compiled program =>
      (.compiled compiled, program)
  | .begin => done Action.beginTransaction
  | .commit => done Action.commit
  | .rollback => done Action.rollback
  | .expireAll => done (Action.modifySession Session.expireAll)
  | .expungeAll => done (Action.modifySession Session.expungeAll)
  | .enableTracker => done (changeTracker Tracker.enable)
  | .disableTracker => done (changeTracker Tracker.disable)
  | .resetTracker => done (changeTracker Tracker.reset)
  | .recordLoad table name =>
    program.perform session context (recordLoad table name) fun reached program =>
      (.recorded reached, program)
  | .load number name =>
    program.performOn session context number (Action.loadAttribute · name) .value
  | .set number name value =>
    program.performOn session context number
      (fun inst => Action.onInstance (·.setAttribute inst name value)) fun _ => .done
  | .expire number names =>
    program.performOn session context number
      (fun inst => Action.onInstance (·.expire inst names)) fun _ => .done
  | .refresh number =>
    program.performOn session context number Action.refresh fun _ => .done
  | .expunge number =>
    program.performOn session context number
      (fun inst => Action.onInstance fun session => (.ok (), inst, session.expunge inst))
      fun _ => .done
  | .clone number =>
    match program.instances[number]? with
    | none => ⟨.ok .unknown, [], program⟩
    | some inst =>
      let (copy, program) := program.hold inst
      ⟨.ok (.copied copy), [], program⟩
where
  changeTracker (change : Tracker → Tracker) : Action Unit :=
    Action.modifySession fun session => { session with tracker := change session.tracker }
  recordLoad (table name : String) : Action Bool := do
    let (reached, tracker) := (← Action.session).tracker.record table name
    Action.modifySession fun session => { session with tracker }
    return reached

/-- Runs a request on the session of a number, with a script for its connection. -/
def step [Hashable Digest] (program : Program) (session : Nat) (connection : Connection)
    (request : Request) : Step :=
  match program.sessions[session]? with
  | none => ⟨.ok .unknown, [], program⟩
  | some current =>
    program.runOn session ⟨current, connection, program.nextHandle, program.configured⟩ request

/-- The first instance with the same key as a given one. -/
def firstWithKey? (program : Program) (inst : Instance) : Option Nat :=
  program.instances.findIdx? (·.key == inst.key)

end Program

end LazyMapper
