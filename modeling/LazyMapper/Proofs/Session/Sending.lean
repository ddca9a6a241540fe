import LazyMapper.Proofs.Session.Fetching

/-!
# What requests send

Whether a request sends anything, and what, is settled before the connection is asked for the
first time: nothing, one statement that begins or ends a transaction, or one query, which a
`BEGIN` goes before when the settings ask for it and the session is in no transaction
(`Program.step_sends`). The answers decide only whether the query follows its `BEGIN`, and what
its rows do. When one of them is a fault, the request ends with it, and the session is left as it
was but for a transaction begun before (`Context.Exchanged`).

Most parts of an action neither ask the connection nor look at it (`Action.Silent`). An action is
followed to its query through parts that leave the session alone as well (`Action.Still`), and what
comes behind the query is silent.
-/

set_option autoImplicit false

namespace LazyMapper

/-! ## Exchanges -/

/-- A call of a connection with its answer. -/
inductive Exchange where
  | execute (sql : String) (reply : Outcome Unit)
  | query (statement : String × List Value) (reply : Outcome (List Row))

namespace Exchange

/-- The call of an exchange. -/
def call : Exchange → Call
  | .execute sql _ => .execute sql
  | .query statement _ => .query statement.1 statement.2

/-- The fault that an exchange is answered with. -/
def fault? : Exchange → Option Interruption
  | .execute _ (.error interruption) | .query _ (.error interruption) => some interruption
  | .execute _ (.ok _) | .query _ (.ok _) => none

/-- Whether a session is in a transaction behind an exchange. A transaction is begun and ended by
statements that are answered without a fault. -/
def settle (inTransaction : Bool) : Exchange → Bool
  | .execute sql (.ok ()) => sql = "BEGIN"
  | .execute _ (.error _) | .query .. => inTransaction

theorem fault?_execute {sql : String} {reply : Outcome Unit} {interruption : Interruption} :
    (execute sql reply).fault? = some interruption ↔ reply = .error interruption := by
  cases reply <;> simp [fault?]

theorem fault?_query {statement : String × List Value} {reply : Outcome (List Row)}
    {interruption : Interruption} :
    (query statement reply).fault? = some interruption ↔ reply = .error interruption := by
  cases reply <;> simp [fault?]

end Exchange

/-- The calls recorded by a connection, each with the answer that a script has for it. -/
def Connection.transcript :
    List Call → List (Outcome (List Row)) → List (Outcome Unit) → List Exchange
  | [], _, _ => []
  | .execute sql :: calls, queries, executions =>
    .execute sql (executions.headD (.ok ())) :: transcript calls queries executions.tail
  | .query sql params :: calls, queries, executions =>
    .query (sql, params) (queries.headD (.ok [])) :: transcript calls queries.tail executions

/-- What a request sends. -/
inductive Sending where
  | nothing
  /-- A statement that begins or ends a transaction. -/
  | control (sql : String)
  | query (statement : String × List Value)

/-- A query is sent, if there is one. -/
def Sending.asking : Option (String × List Value) → Sending
  | none => .nothing
  | some statement => .query statement

/-- The exchanges with a connection. `begins` tells that a query has a `BEGIN` before it, and then
it is only sent when this succeeds. -/
def Sending.exchanges (begins : Bool) (connection : Connection) : Sending → List Exchange
  | .nothing => []
  | .control sql => [.execute sql (connection.executeReplies.headD (.ok ()))]
  | .query statement =>
    let asked := .query statement (connection.queryReplies.headD (.ok []))
    if begins then
      match connection.executeReplies.headD (.ok ()) with
      | .ok () => [.execute "BEGIN" (.ok ()), asked]
      | .error interruption => [.execute "BEGIN" (.error interruption)]
    else [asked]

/-- The transcript of what is sent shows the exchanges. -/
theorem Sending.transcript_exchanges (sending : Sending) (begins : Bool) (connection : Connection) :
    Connection.transcript ((sending.exchanges begins connection).map Exchange.call)
      connection.queryReplies connection.executeReplies = sending.exchanges begins connection := by
  cases sending with
  | nothing => rfl
  | control sql => rfl
  | query statement =>
      obtain ⟨queries, executions, calls⟩ := connection
      cases begins with
      | false => rfl
      | true =>
          match executions with
          | [] | .ok () :: _ | .error _ :: _ => rfl

/-- A query that is sent has the next answer of the connection. -/
theorem Sending.reply_eq_of_mem (sending : Sending) {begins : Bool} {connection : Connection}
    {statement : String × List Value} {reply : Outcome (List Row)}
    (member : .query statement reply ∈ sending.exchanges begins connection) :
    reply = connection.queryReplies.headD (.ok []) := by
  cases sending with
  | nothing => cases member
  | control => cases List.mem_singleton.mp member
  | query other =>
      obtain ⟨queries, executions, calls⟩ := connection
      match begins, executions with
      | false, _ =>
          cases List.mem_singleton.mp member
          rfl
      | true, [] | true, .ok () :: _ =>
          have listed : Exchange.query statement reply ∈
            [.execute "BEGIN" (.ok ()), .query other (queries.headD (.ok []))] := member
          rcases List.mem_cons.mp listed with same | last
          · cases same
          · cases List.mem_singleton.mp last
            rfl
      | true, .error _ :: _ => cases List.mem_singleton.mp member

/-! ## Sessions and contexts while something is sent -/

/-- The settings are the same, and so is whether the session is in a transaction. -/
structure Session.SameTransaction (before after : Session) : Prop where
  config : after.config = before.config
  inTransaction : after.inTransaction = before.inTransaction

namespace Session

variable {first second third : Session}

theorem SameTransaction.refl (session : Session) : session.SameTransaction session := ⟨rfl, rfl⟩

theorem SameTransaction.trans (front : first.SameTransaction second)
    (back : second.SameTransaction third) : first.SameTransaction third :=
  ⟨back.config.trans front.config, back.inTransaction.trans front.inTransaction⟩

theorem SameTransaction.beginsFirst (same : first.SameTransaction second) :
    second.beginsFirst = first.beginsFirst := by
  unfold Session.beginsFirst
  rw [same.config, same.inTransaction]

theorem meet_sameTransaction (session : Session) (model : Model) :
    session.SameTransaction (session.meet model) := by
  unfold meet
  split <;> exact ⟨rfl, rfl⟩

theorem markDeleted_sameTransaction (session : Session) (inst : Instance) (entry : Entry) :
    session.SameTransaction (session.markDeleted inst entry) := ⟨rfl, rfl⟩

theorem countLoad_sameTransaction (session : Session) (inst : Instance) (index : Nat) :
    session.SameTransaction (session.countLoad inst index) := by
  obtain ⟨tracker, same⟩ := session.countLoad_eq inst index
  rw [same]
  exact ⟨rfl, rfl⟩

theorem receiveFetched_sameTransaction (session : Session) (inst : Instance) (name : String)
    (index : Nat) (indices : List Nat) (key : List Value) (rows : List Row) :
    session.SameTransaction (session.receiveFetched inst name index indices key rows).2.2 := by
  unfold receiveFetched
  split
  · exact .refl session
  · exact markDeleted_sameTransaction ..
  · split
    · exact ⟨rfl, rfl⟩
    · rename_i entry _ _ _ record _
      dsimp only
      have written (entry : Entry) : session.SameTransaction (session.withEntry inst.key entry) :=
        ⟨rfl, rfl⟩
      exact (written _).trans (countLoad_sameTransaction ..)

theorem receiveRefreshed_sameTransaction (session : Session) (inst : Instance)
    (key : List Value) (rows : List Row) :
    session.SameTransaction (session.receiveRefreshed inst key rows).2.2 := by
  unfold receiveRefreshed
  split
  · exact .refl session
  · exact markDeleted_sameTransaction ..
  · dsimp only
    split <;> exact ⟨rfl, rfl⟩

theorem setAttribute_sameTransaction (session : Session) (inst : Instance) (name : String)
    (value : Value) : session.SameTransaction (session.setAttribute inst name value).2.2 := by
  obtain ⟨_, same⟩ | ⟨_, _, _, _, _, same⟩ := session.setAttribute_cases inst name value
  · rw [same]
    exact .refl session
  · rw [same]
    exact ⟨rfl, rfl⟩

theorem expire_sameTransaction (session : Session) (inst : Instance) (names : List String) :
    session.SameTransaction (session.expire inst names).2.2 := by
  obtain ⟨_, same⟩ | ⟨_, _, ⟨_, same⟩ | ⟨_, _, same⟩⟩ := session.expire_cases inst names
  · rw [same]
    exact .refl session
  · rw [same]
    exact session.meet_sameTransaction inst.model
  · rw [same]
    exact (session.meet_sameTransaction inst.model).trans ⟨rfl, rfl⟩

theorem expunge_sameTransaction (session : Session) (inst : Instance) :
    session.SameTransaction (session.expunge inst) := by
  unfold expunge
  split <;> exact ⟨rfl, rfl⟩

end Session

/-- The context with another connection. -/
def Context.on (context : Context) (connection : Connection) : Context :=
  { context with connection }

/-- What was sent between two contexts, of which the second may differ in its entries too. -/
structure Context.Sent (before after : Context) (exchanges : List Exchange) : Prop where
  config : after.session.config = before.session.config
  inTransaction : after.session.inTransaction =
    exchanges.foldl Exchange.settle before.session.inTransaction
  calls : after.connection.calls = before.connection.calls ++ exchanges.map Exchange.call

/-- What was sent between two contexts, and how a run between them has ended. A fault among the
exchanges is what it has ended with. The session is then left as it was, except that it may be in
a transaction. -/
structure Context.Exchanged {α : Type} (before : Context) (outcome : Outcome α) (after : Context)
    (exchanges : List Exchange) : Prop extends Context.Sent before after exchanges where
  faults : ∀ exchange ∈ exchanges, ∀ interruption, exchange.fault? = some interruption →
    outcome = .error interruption ∧
      after.session = { before.session with inTransaction := after.session.inTransaction }

/-- Nothing was sent. -/
theorem Context.exchanged_nothing {α : Type} {before after : Context} {outcome : Outcome α}
    (same : before.session.SameTransaction after.session)
    (silent : after.connection.calls = before.connection.calls) :
    before.Exchanged outcome after [] where
  config := same.config
  inTransaction := same.inTransaction
  calls := silent.trans (List.append_nil _).symm
  faults := nofun

/-- How a run ends without a result does not depend on what the result would be. -/
theorem Context.Exchanged.of_error {α β : Type} {before after : Context}
    {interruption : Interruption} {exchanges : List Exchange}
    (sent : before.Exchanged (.error interruption : Outcome α) after exchanges) :
    before.Exchanged (.error interruption : Outcome β) after exchanges := by
  refine ⟨sent.toSent, fun exchange member other fault => ?_⟩
  obtain ⟨same, kept⟩ := sent.faults exchange member other fault
  cases same
  exact ⟨rfl, kept⟩

/-! ## Silent actions -/

namespace Action

variable {α β : Type}

/-- Whatever the connection is, the action does the same, sends nothing and leaves the session in
its transaction or out of it. -/
def Silent (action : Action α) : Prop :=
  ∀ context : Context, ∃ (outcome : Outcome α) (after : Context),
    context.session.SameTransaction after.session ∧
      ∀ connection, action.run.run (context.on connection) = (outcome, after.on connection)

/-- Whatever the connection is, the action does the same, sends nothing and leaves the session
and the supply of handle numbers alone. -/
def Still (action : Action α) : Prop :=
  ∀ context : Context, ∃ (outcome : Outcome α) (after : Context),
    after.session = context.session ∧ after.nextHandle = context.nextHandle ∧
      ∀ connection, action.run.run (context.on connection) = (outcome, after.on connection)

namespace Still

variable {action : Action α}

theorem silent (still : Still action) : Silent action := by
  intro context
  obtain ⟨outcome, after, same, -, run⟩ := still context
  exact ⟨outcome, after, same ▸ .refl _, run⟩

theorem pure (result : α) : Still (Pure.pure result) :=
  fun context => ⟨.ok result, context, rfl, rfl, fun _ => rfl⟩

theorem fail (error : Error) : Still (fail error : Action α) :=
  fun context => ⟨.error (.failed error), context, rfl, rfl, fun _ => rfl⟩

theorem fail_bind (error : Error) (next : α → Action β) : Still (Action.fail error >>= next) :=
  fun context => ⟨.error (.failed error), context, rfl, rfl, fun _ => rfl⟩

theorem ofExcept (result : Except Error α) : Still (Action.ofExcept result) := by
  cases result with
  | ok value => exact .pure value
  | error error => exact .fail error

theorem session : Still Action.session :=
  fun context => ⟨.ok context.session, context, rfl, rfl, fun _ => rfl⟩

end Still

theorem still_ofConfiguring (computation : Configuring α) : Still (ofConfiguring computation) := by
  intro context
  obtain ⟨result, configured, ran⟩ : ∃ result configured,
      computation.run.run context.configured = (result, configured) := ⟨_, _, rfl⟩
  have run (connection : Connection) :=
    ofConfiguring_run (show computation.run.run (context.on connection).configured = _ from ran)
  cases result with
  | error error => exact ⟨_, { context with configured }, rfl, rfl, run⟩
  | ok value => exact ⟨_, { context with configured }, rfl, rfl, run⟩

theorem still_compile (schema : Schema) (statement : Statement) :
    Still (compile schema statement) := fun context =>
  still_ofConfiguring (statement.compile schema context.session.config.dialect) context

theorem still_planFor (compiled : CompiledStatement) (model : Model) :
    Still (planFor compiled model) := by
  unfold planFor
  split
  · exact .pure _
  · exact .fail _

namespace Silent

variable {action : Action α} {next : α → Action β}

theorem pure (result : α) : Silent (Pure.pure result) := (Still.pure result).silent

theorem modifySession {change : Session → Session}
    (same : ∀ session : Session, session.SameTransaction (change session)) :
    Silent (Action.modifySession change) :=
  fun context =>
    ⟨.ok (), { context with session := change context.session }, same _, fun _ => rfl⟩

theorem takeHandle : Silent Action.takeHandle :=
  fun context => ⟨.ok context.nextHandle, { context with nextHandle := context.nextHandle + 1 },
    .refl _, fun _ => rfl⟩

theorem bind (first : Silent action) (rest : ∀ result, Silent (next result)) :
    Silent (action >>= next) := by
  intro context
  obtain ⟨outcome, middle, same, run⟩ := first context
  cases outcome with
  | error interruption =>
      exact ⟨.error interruption, middle, same, fun connection => by rw [run_bind, run]⟩
  | ok result =>
      obtain ⟨outcome, after, same', run'⟩ := rest result middle
      refine ⟨outcome, after, same.trans same', fun connection => ?_⟩
      rw [run_bind, run]
      exact run' connection

theorem mapM {step : α → Action β} (each : ∀ item, Silent (step item)) (items : List α) :
    Silent (items.mapM step) := by
  induction items with
  | nil =>
      rw [List.mapM_nil]
      exact .pure []
  | cons item rest ih =>
      rw [List.mapM_cons]
      exact (each item).bind fun _ => ih.bind fun _ => .pure _

end Silent

theorem silent_mergeRecord (model : Model) (row : Row) (record : Record) (key : Key) :
    Silent (mergeRecord model row record key) := by
  refine .bind Still.session.silent fun session => ?_
  split
  · dsimp only
    refine .bind (.modifySession fun _ => ⟨rfl, rfl⟩) fun _ => ?_
    exact .bind (Still.ofExcept _).silent fun _ => .pure _
  · refine .bind .takeHandle fun handle => ?_
    exact .bind (.modifySession fun _ => ⟨rfl, rfl⟩) fun _ => .pure _

theorem silent_mergeRow [Hashable Digest] (model : Model) (plan : LoadPlan) (row : Row) :
    Silent (mergeRow model plan row) := by
  refine .bind (.modifySession (·.meet_sameTransaction model)) fun _ => ?_
  refine .bind (Still.ofExcept _).silent fun record => ?_
  exact .bind (silent_mergeRecord _ _ _ _) fun _ => .pure _

theorem silent_mergePair [Hashable Digest] (left right : Model) (leftPlan rightPlan : LoadPlan)
    (row : Row) : Silent (mergePair left right leftPlan rightPlan row) :=
  .bind (silent_mergeRow _ _ _) fun _ => .bind (silent_mergeRow _ _ _) fun _ => .pure _

/-! ## Actions that send something -/

/-- What the action sends, whatever the connection is. -/
def Sends (action : Action α) (context : Context) (sending : Sending) : Prop :=
  ∀ connection, (context.on connection).Exchanged (action.run.run (context.on connection)).1
    (action.run.run (context.on connection)).2
    (sending.exchanges context.session.beginsFirst connection)

/-- The action sends at most one query, and which is settled beforehand. -/
def Asks (action : Action α) (context : Context) : Prop :=
  ∃ query?, Sends action context (.asking query?)

variable {action : Action α} {next : α → Action β} {context : Context} {sending : Sending}

theorem Silent.sends (silent : Silent action) (context : Context) :
    Sends action context .nothing := by
  intro connection
  obtain ⟨outcome, after, same, run⟩ := silent context
  rw [run]
  exact Context.exchanged_nothing same rfl

theorem Silent.asks (silent : Silent action) (context : Context) : Asks action context :=
  ⟨none, silent.sends context⟩

/-- An action that leaves the session alone, before one that sends something. -/
theorem Still.bind_asks (still : Still action)
    (rest : ∀ result after, after.session = context.session → Asks (next result) after) :
    Asks (action >>= next) context := by
  obtain ⟨outcome, middle, same, -, run⟩ := still context
  cases outcome with
  | error interruption =>
      refine ⟨none, fun connection => ?_⟩
      rw [run_bind, run]
      exact Context.exchanged_nothing (same ▸ .refl _) rfl
  | ok result =>
      obtain ⟨query?, sends⟩ := rest result middle same
      obtain ⟨session, _, _, _⟩ := middle
      subst same
      refine ⟨query?, fun connection => ?_⟩
      rw [run_bind, run]
      exact ⟨⟨(sends connection).config, (sends connection).inTransaction,
        (sends connection).calls⟩, (sends connection).faults⟩

/-- A silent action behind one that sends something. -/
theorem Sends.bind_silent (sends : Sends action context sending)
    (rest : ∀ result, Silent (next result)) : Sends (action >>= next) context sending := by
  intro connection
  have sent := sends connection
  rw [run_bind]
  generalize action.run.run (context.on connection) = ended at sent ⊢
  obtain ⟨outcome, middle⟩ := ended
  cases outcome with
  | error interruption => exact sent.of_error
  | ok result =>
      obtain ⟨_, after, same, run⟩ := rest result middle
      have ran := run middle.connection
      rw [show middle.on middle.connection = middle from rfl] at ran
      dsimp only
      rw [ran]
      refine ⟨⟨same.config.trans sent.config, same.inTransaction.trans sent.inTransaction,
        sent.calls⟩, fun exchange member interruption fault => ?_⟩
      cases (sent.faults exchange member interruption fault).1

/-- A query is sent, behind a `BEGIN` if one is due. -/
theorem query_sends (statement : String × List Value) (context : Context) :
    Sends (query statement) context (.query statement) := by
  intro connection
  obtain ⟨⟨⟨autoBegin, _, _, _⟩, inTransaction, _, _, _⟩, _, _, _⟩ := context
  obtain ⟨queries, executions, calls⟩ := connection
  match autoBegin, inTransaction, executions with
  | false, false, _ | false, true, _ | true, true, _ =>
      refine ⟨⟨rfl, rfl, rfl⟩, List.forall_mem_singleton.mpr fun interruption fault => ?_⟩
      exact ⟨Exchange.fault?_query.mp fault, rfl⟩
  | true, false, [] | true, false, .ok () :: _ =>
      refine ⟨⟨rfl, rfl, List.append_assoc calls [_] [_]⟩, ?_⟩
      refine List.forall_mem_cons.mpr ⟨nofun, List.forall_mem_singleton.mpr ?_⟩
      exact fun interruption fault => ⟨Exchange.fault?_query.mp fault, rfl⟩
  | true, false, .error _ :: _ =>
      refine ⟨⟨rfl, rfl, rfl⟩, List.forall_mem_singleton.mpr fun interruption fault => ?_⟩
      cases Exchange.fault?_execute.mp fault
      exact ⟨rfl, rfl⟩

theorem query_asks (statement : String × List Value) (context : Context) :
    Asks (query statement) context :=
  ⟨some statement, query_sends statement context⟩

theorem Asks.bind_silent (asks : Asks action context) (rest : ∀ result, Silent (next result)) :
    Asks (action >>= next) context := by
  obtain ⟨query?, sends⟩ := asks
  exact ⟨query?, sends.bind_silent rest⟩

/-- What is called by an action that sends a query, when the `BEGIN` in front of it succeeds. -/
theorem Sends.calls_of_query {statement : String × List Value}
    (sends : Sends action context (.query statement))
    (begins : context.session.beginsFirst →
      context.connection.executeReplies.headD (.ok ()) = .ok ()) :
    (action.run.run context).2.connection.calls =
      context.connection.calls ++ context.session.callsToBegin ++
        [.query statement.1 statement.2] := by
  refine (sends context.connection).calls.trans ?_
  rw [List.append_assoc]
  refine congrArg (context.connection.calls ++ ·) ?_
  unfold Sending.exchanges Session.callsToBegin
  cases first : context.session.beginsFirst with
  | false => rfl
  | true =>
      rw [begins first]
      rfl

/-- An action that sends a query and succeeds has begun the transaction that was due. -/
theorem Sends.begins_of_ok {statement : String × List Value} {result : α} {after : Context}
    (sends : Sends action context (.query statement))
    (ran : action.run.run context = (.ok result, after)) (first : context.session.beginsFirst) :
    context.connection.executeReplies.headD (.ok ()) = .ok () := by
  cases reply : context.connection.executeReplies.headD (.ok ()) with
  | ok _ => rfl
  | error interruption =>
      have begun : .execute "BEGIN" (.error interruption) ∈
          (Sending.query statement).exchanges context.session.beginsFirst context.connection := by
        rw [first, Sending.exchanges, if_pos rfl, reply]
        exact List.mem_singleton_self _
      have failed := ((sends context.connection).faults _ begun interruption rfl).1
      rw [show context.on context.connection = context from rfl, ran] at failed
      cases failed

/-! ## Loading -/

theorem all_asks [Hashable Digest] (schema : Schema) (model : Model) (statement : Statement)
    (context : Context) :
    Asks (all schema model statement) context := by
  refine (still_compile schema statement).bind_asks fun compiled _ _ => ?_
  dsimp only
  split
  · exact (Still.fail_bind _ _).silent.asks _
  refine (still_planFor compiled model).bind_asks fun plan _ _ => ?_
  exact (query_asks _ _).bind_silent (.mapM (silent_mergeRow model plan))

theorem first_asks [Hashable Digest] (schema : Schema) (model : Model) (statement : Statement)
    (context : Context) :
    Asks (first schema model statement) context := by
  exact (all_asks schema model (statement.limit 1) context).bind_silent fun _ => .pure _

theorem allPairs_asks [Hashable Digest] (schema : Schema) (left right : Model)
    (statement : Statement) (context : Context) :
    Asks (allPairs schema left right statement) context := by
  refine (still_compile schema statement).bind_asks fun compiled _ _ => ?_
  dsimp only
  split
  · exact (Still.fail_bind _ _).silent.asks _
  refine (still_planFor compiled left).bind_asks fun leftPlan _ _ => ?_
  refine (still_planFor compiled right).bind_asks fun rightPlan _ _ => ?_
  exact (query_asks _ _).bind_silent (.mapM (silent_mergePair left right leftPlan rightPlan))

theorem getByKey_asks [Hashable Digest] (schema : Schema) (model : Model) (values : List Value)
    (options : List LoaderOption) (context : Context) :
    Asks (getByKey schema model values options) context := by
  unfold getByKey
  dsimp only
  split
  · exact (Still.fail_bind _ _).silent.asks _
  refine (Still.ofExcept _).bind_asks fun statement _ _ => ?_
  refine (still_compile schema statement).bind_asks fun compiled _ _ => ?_
  refine (still_planFor compiled model).bind_asks fun plan _ _ => ?_
  refine Still.session.bind_asks fun session _ _ => ?_
  split
  · exact (Silent.pure _).asks _
  · refine (query_asks _ _).bind_silent fun rows => ?_
    cases rows with
    | nil => exact .pure none
    | cons row rest => exact .bind (silent_mergeRow model plan row) fun _ => .pure _

theorem loadRelated_asks [Hashable Digest] (schema : Schema) (parent related : Model)
    (statement : Statement) (parents : List Instance) (path : String) (context : Context) :
    Asks (loadRelated schema parent related statement parents path) context := by
  refine (still_compile schema statement).bind_asks fun compiled _ _ => ?_
  refine (still_ofConfiguring _).bind_asks fun target _ _ => ?_
  split
  · exact (Still.fail _).silent.asks _
  refine (Still.ofExcept _).bind_asks fun column _ _ => ?_
  split
  · exact (Still.fail _).silent.asks _
  refine Still.session.bind_asks fun session _ _ => ?_
  refine (Still.ofExcept _).bind_asks fun values _ _ => ?_
  dsimp only
  split
  · exact (Silent.pure _).asks _
  · exact (query_asks _ _).bind_silent (.mapM (silent_mergeRow related target.plan))

/-! ## Transactions -/

/-- A statement that begins or ends a transaction does so when it succeeds. -/
theorem control_sends {sql : String} {inTransaction : Bool}
    (turns : inTransaction = decide (sql = "BEGIN")) (context : Context) :
    Sends (do execute sql; modifySession fun session => { session with inTransaction }) context
      (.control sql) := by
  subst turns
  intro connection
  obtain ⟨queries, executions, calls⟩ := connection
  match executions with
  | [] | .ok () :: _ => exact ⟨⟨rfl, rfl, rfl⟩, List.forall_mem_singleton.mpr nofun⟩
  | .error _ :: _ =>
      refine ⟨⟨rfl, rfl, rfl⟩, List.forall_mem_singleton.mpr fun interruption fault => ?_⟩
      exact ⟨Exchange.fault?_execute.mp fault, rfl⟩

/-- What is sent is settled in the session that an action reads first. -/
theorem sends_session {next : Session → Action β} :
    Sends (session >>= next) context sending ↔ Sends (next context.session) context sending :=
  Iff.rfl

theorem beginTransaction_sends (context : Context) :
    Sends beginTransaction context
      (if context.session.inTransaction then .nothing else .control "BEGIN") := by
  refine sends_session.mpr ?_
  cases context.session.inTransaction with
  | true => exact (Silent.pure ()).sends context
  | false => exact control_sends rfl context

theorem endTransaction_sends {sql : String} (other : sql ≠ "BEGIN") (context : Context) :
    Sends (endTransaction sql) context
      (if context.session.inTransaction then .control sql else .nothing) := by
  refine sends_session.mpr ?_
  cases context.session.inTransaction with
  | true => exact control_sends (decide_eq_false other).symm context
  | false => exact (Silent.pure ()).sends context

theorem silent_expireAll : Silent (modifySession Session.expireAll) :=
  .modifySession fun _ => ⟨rfl, rfl⟩

theorem commit_sends (context : Context) :
    Sends commit context
      (if context.session.inTransaction then .control "COMMIT" else .nothing) := by
  refine (endTransaction_sends (by decide) context).bind_silent fun _ => ?_
  refine .bind Still.session.silent fun session => ?_
  cases session.config.expireOnCommit with
  | true => exact silent_expireAll
  | false => exact .pure ()

theorem rollback_sends (context : Context) :
    Sends rollback context
      (if context.session.inTransaction then .control "ROLLBACK" else .nothing) :=
  (endTransaction_sends (by decide) context).bind_silent fun _ => silent_expireAll

/-! ## Actions on instances -/

/-- What an action on an instance sends, whatever the connection is. -/
def OnInstance.Sends (action : OnInstance α) (context : Context) (sending : Sending) : Prop :=
  ∀ connection, (context.on connection).Exchanged (action (context.on connection)).1
    (action (context.on connection)).2.2
    (sending.exchanges context.session.beginsFirst connection)

/-- The action sends at most one query, and which is settled beforehand. -/
def OnInstance.Asks (action : OnInstance α) (context : Context) : Prop :=
  ∃ query?, Sends action context (.asking query?)

/-- A step that keeps the session in its transaction or out of it sends nothing. -/
theorem onInstance_asks {step : Session → Except Error α × Instance × Session}
    (same : ∀ session : Session, session.SameTransaction (step session).2.2) (context : Context) :
    OnInstance.Asks (onInstance step) context := by
  exact ⟨none, fun _ => Context.exchanged_nothing (same context.session) rfl⟩

/-- An action on an instance that comes to a query by its key sends the query. -/
theorem afterQuery_sends (inst : Instance) (columns : List String) (key : List Value)
    {step : List Row → Session → Except Error α × Instance × Session}
    (same : ∀ rows, ∀ session : Session, session.SameTransaction (step rows session).2.2)
    (context : Context) :
    OnInstance.Sends (afterQuery inst columns key step) context
      (.query
        ((inst.plan.entity.queryByKey columns key).build context.session.config.dialect)) := by
  have sends : Sends (queryByKey inst columns key) context _ :=
    sends_session.mpr (query_sends _ context)
  intro connection
  have sent := sends connection
  unfold afterQuery
  generalize (queryByKey inst columns key).run.run (context.on connection) = ended at sent ⊢
  obtain ⟨outcome, middle⟩ := ended
  cases outcome with
  | error interruption => exact sent.of_error
  | ok rows =>
      have kept := same rows middle.session
      refine ⟨⟨kept.config.trans sent.config, kept.inTransaction.trans sent.inTransaction,
        sent.calls⟩, fun exchange member interruption fault => ?_⟩
      cases (sent.faults exchange member interruption fault).1

/-- An action on an instance that comes to the same as another for every connection. -/
theorem OnInstance.Sends.of_eq {action other : OnInstance α} {context : Context}
    {sending : Sending} (sends : Sends other context sending)
    (same : ∀ connection, action (context.on connection) = other (context.on connection)) :
    Sends action context sending := by
  intro connection
  rw [same]
  exact sends connection

/-- An action on an instance that is over before anything is sent. -/
theorem OnInstance.Sends.of_outcome {action : OnInstance α} {context : Context}
    {outcome : Outcome α} {copy : Instance}
    (ended : ∀ connection, action (context.on connection) =
      (outcome, copy, context.on connection)) : Sends action context .nothing := by
  intro connection
  rw [ended]
  exact Context.exchanged_nothing (.refl _) rfl

/-- What a read sends, given what it comes to: the query by key of a fetch, or nothing. -/
def readSending (dialect : Sql.Dialect) : Except Error Reading × Instance → Sending
  | (.ok (.fetch _ indices key), inst) =>
    .query ((inst.plan.entity.queryByKey (inst.plan.columnsAt indices) key).build dialect)
  | (.ok (.loaded _), _) | (.error _, _) => .nothing

theorem loadAttribute_sends (inst : Instance) (name : String) (context : Context) :
    OnInstance.Sends (loadAttribute inst name) context
      (readSending context.session.config.dialect (context.session.readRequest inst name)) := by
  obtain ⟨reading, copy, read⟩ : ∃ reading copy,
      context.session.readRequest inst name = (reading, copy) := ⟨_, _, rfl⟩
  have request (connection : Connection) :
      (context.on connection).session.readRequest inst name = (reading, copy) := read
  rw [read]
  match reading with
  | .error error =>
      exact .of_outcome fun connection => by rw [loadAttribute, request]
  | .ok (.loaded value) =>
      exact .of_outcome fun connection => by rw [loadAttribute, request]
  | .ok (.fetch index indices key) =>
      refine (afterQuery_sends copy (copy.plan.columnsAt indices) key (fun rows session =>
        session.receiveFetched_sameTransaction copy name index indices key rows) context).of_eq ?_
      exact fun connection => by rw [loadAttribute, request]

theorem loadAttribute_asks (inst : Instance) (name : String) (context : Context) :
    OnInstance.Asks (loadAttribute inst name) context := by
  have sends := loadAttribute_sends inst name context
  generalize context.session.readRequest inst name = read at sends
  match read with
  | (.error _, _) | (.ok (.loaded _), _) => exact ⟨none, sends⟩
  | (.ok (.fetch ..), _) => exact ⟨some _, sends⟩

theorem refresh_asks (inst : Instance) (context : Context) :
    OnInstance.Asks (refresh inst) context := by
  obtain ⟨result, read⟩ : ∃ result, context.session.refreshRequest inst = result := ⟨_, rfl⟩
  have request (connection : Connection) :
      (context.on connection).session.refreshRequest inst = result := read
  cases result with
  | error error =>
      exact ⟨none, .of_outcome fun connection => by rw [refresh, request]⟩
  | ok key =>
      refine ⟨some _, (afterQuery_sends inst inst.plan.eagerColumns key (fun rows session =>
        session.receiveRefreshed_sameTransaction inst key rows) context).of_eq ?_⟩
      exact fun connection => by rw [refresh, request]

end Action

end LazyMapper
