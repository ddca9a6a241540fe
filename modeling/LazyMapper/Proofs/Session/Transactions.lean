import LazyMapper.Proofs.Session.Sending
import Mathlib.Data.List.Induction

/-!
# Transactions over a whole run

Over a run of requests on the sessions of a program, each with a script for its connection, the
transcript of a session lists what it has sent with the answers. Every exchange is in order where
it happens (`Exchange.InOrder`): a `BEGIN` outside a transaction, a `COMMIT` or `ROLLBACK` inside
one and, where the settings begin transactions on their own, a query inside one. So the statements
that are answered without a fault come in pairs, and the session is in a transaction exactly when
the last of them is a `BEGIN` (`Program.transactions_bracketed`).
-/

set_option autoImplicit false

namespace LazyMapper

/-! ## Transcripts in order -/

namespace Exchange

/-- The statement that began or ended a transaction, if it was answered without a fault. -/
def accepted? : Exchange → Option String
  | .execute sql (.ok ()) => some sql
  | .execute _ (.error _) | .query .. => none

/-- The statements that began and ended transactions. -/
def accepted (sent : List Exchange) : List String := sent.filterMap accepted?

/-- The last statement that began or ended a transaction is a `BEGIN`. -/
def leavesOpen (sent : List Exchange) : Bool := (accepted sent).getLast? = some "BEGIN"

/-- What may be sent in a transaction or outside one. -/
def InOrder (autoBegin inTransaction : Bool) : Exchange → Prop
  | .execute sql _ =>
    sql = "BEGIN" ∧ inTransaction = false ∨
      (sql = "COMMIT" ∨ sql = "ROLLBACK") ∧ inTransaction = true
  | .query .. => autoBegin = true → inTransaction = true

/-- Every exchange is in order where it happens. -/
def AllInOrder (autoBegin : Bool) : Bool → List Exchange → Prop
  | _, [] => True
  | inTransaction, exchange :: rest =>
    exchange.InOrder autoBegin inTransaction ∧
      AllInOrder autoBegin (exchange.settle inTransaction) rest

variable {autoBegin inTransaction : Bool} {sent : List Exchange}

theorem allInOrder_append (front back : List Exchange) :
    AllInOrder autoBegin inTransaction (front ++ back) ↔
      AllInOrder autoBegin inTransaction front ∧
        AllInOrder autoBegin (front.foldl settle inTransaction) back := by
  induction front generalizing inTransaction with
  | nil => simp [AllInOrder]
  | cons exchange rest ih => simp [AllInOrder, ih, and_assoc]

end Exchange

/-- Statements that begin and end transactions, by turns. -/
def Bracketed (statements : List String) : Prop :=
  ∀ index sql, statements[index]? = some sql →
    if index % 2 = 0 then sql = "BEGIN" else sql = "COMMIT" ∨ sql = "ROLLBACK"

/-- One more statement takes its turn. -/
theorem Bracketed.append {statements : List String} (bracketed : Bracketed statements)
    {sql : String} (turn : if statements.length % 2 = 0 then sql = "BEGIN"
      else sql = "COMMIT" ∨ sql = "ROLLBACK") : Bracketed (statements ++ [sql]) := by
  intro index other here
  rw [List.getElem?_append] at here
  split at here
  · exact bracketed index other here
  · rename_i behind
    obtain ⟨inside, rfl⟩ := List.getElem?_eq_some_iff.mp here
    rw [List.length_singleton] at inside
    obtain rfl : index = statements.length := by omega
    simpa using turn

/-- The last of the statements is a `BEGIN` when there is an odd number of them. -/
theorem Bracketed.getLast?_iff {statements : List String} (bracketed : Bracketed statements) :
    statements.getLast? = some "BEGIN" ↔ statements.length % 2 = 1 := by
  rw [List.getLast?_eq_getElem?]
  cases here : statements[statements.length - 1]? with
  | none =>
      have empty := List.getElem?_eq_none_iff.mp here
      exact iff_of_false nofun (by omega)
  | some last =>
      have inside := (List.getElem?_eq_some_iff.mp here).1
      have turn := bracketed _ _ here
      split at turn
      · exact iff_of_true (by rw [turn]) (by omega)
      · refine iff_of_false (fun same => ?_) (by omega)
        rw [Option.some.inj same] at turn
        revert turn
        decide

namespace Exchange

variable {autoBegin : Bool} {sent : List Exchange}

/-- **Exchanges in order begin and end transactions by turns**, and as many as were begun are
ended unless the session is in one. -/
theorem bracketed_of_allInOrder (ordered : AllInOrder autoBegin false sent) :
    Bracketed (accepted sent) ∧
      (sent.foldl settle false ↔ (accepted sent).length % 2 = 1) := by
  induction sent using List.reverseRecOn with
  | nil => exact ⟨nofun, iff_of_false nofun nofun⟩
  | append_singleton front last ih =>
      obtain ⟨before, here, -⟩ := (allInOrder_append front [last]).mp ordered
      obtain ⟨bracketed, balance⟩ := ih before
      have grown : accepted (front ++ [last]) = accepted front ++ accepted [last] :=
        List.filterMap_append
      rw [grown, List.foldl_append]
      match last, here with
      | .query _ _, _ | .execute _ (.error _), _ =>
          rw [show accepted [_] = [] from rfl, List.append_nil]
          exact ⟨bracketed, balance⟩
      | .execute sql (.ok ()), here =>
          rw [show accepted [.execute sql (.ok ())] = [sql] from rfl, List.length_append,
            List.length_singleton]
          rcases here with ⟨rfl, idle⟩ | ⟨ends, active⟩
          · have even : ¬ (accepted front).length % 2 = 1 := by
              rw [← balance, idle]
              exact Bool.false_ne_true
            refine ⟨bracketed.append ?_, iff_of_true rfl (by omega)⟩
            rw [if_pos (by omega)]
          · have odd := balance.mp active
            refine ⟨bracketed.append ?_, iff_of_false ?_ (by omega)⟩
            · rwa [if_neg (by omega)]
            · rcases ends with rfl | rfl <;> exact Bool.false_ne_true

/-- Whether the session is in a transaction shows in the last accepted statement. -/
theorem settle_eq_leavesOpen (ordered : AllInOrder autoBegin false sent) :
    sent.foldl settle false = leavesOpen sent := by
  obtain ⟨bracketed, balance⟩ := bracketed_of_allInOrder ordered
  rw [Bool.eq_iff_iff, balance, leavesOpen, decide_eq_true_iff, bracketed.getLast?_iff]

end Exchange

/-! ## Requests -/

/-- When a request sends what it does: any but that to begin a transaction may send a query, and
transactions are begun outside one and ended inside one. -/
inductive Sending.Due (request : Request) (session : Session) : Sending → Prop where
  | asking (query? : Option (String × List Value)) (other : query?.isSome → request ≠ .begin) :
      Due request session (.asking query?)
  | began (asked : request = .begin) (idle : session.inTransaction = false) :
      Due request session (.control "BEGIN")
  | ended {sql : String} (ends : sql = "COMMIT" ∨ sql = "ROLLBACK")
      (active : session.inTransaction = true) : Due request session (.control sql)

namespace Program

/-- What a request has sent on its session. A fault among the exchanges is its outcome, and has
left the session as it was, except that it may be in a transaction. -/
structure Step.Sent (step : Step) (program : Program) (number : Nat) (session : Session)
    (exchanges : List Exchange) : Prop where
  calls : step.calls = exchanges.map Exchange.call
  session : ∃ after, step.program.sessions = program.sessions.set number after ∧
    after.config = session.config ∧
    after.inTransaction = exchanges.foldl Exchange.settle session.inTransaction ∧
    ∀ exchange ∈ exchanges, ∀ interruption, exchange.fault? = some interruption →
      step.outcome = .error interruption ∧
        after = { session with inTransaction := after.inTransaction }

/-- What a request sends on its session, whatever the connection is. It is due. -/
def Sends (program : Program) (number : Nat) (session : Session) (request : Request)
    (run : Connection → Step) : Prop :=
  ∃ sending : Sending, sending.Due request session ∧
    ∀ connection : Connection, connection.calls = [] →
      (run connection).Sent program number session
        (sending.exchanges session.beginsFirst connection)

variable {program : Program} {number held : Nat} {session : Session} {request : Request}
  {sending : Sending}

theorem sent_nothing {step : Step}
    (here : program.sessions[number]? = some session) (silent : step.calls = [])
    (same : step.program.sessions = program.sessions) : step.Sent program number session [] where
  calls := silent
  session := by
    obtain ⟨inside, rfl⟩ := List.getElem?_eq_some_iff.mp here
    exact ⟨_, by rw [same, List.set_getElem_self], rfl, rfl, nofun⟩

/-- A request that runs an action. -/
theorem perform_sends {α : Type} {action : Action α} {answer : α → Program → Reply × Program}
    (sends : action.Sends (program.contextOf session .silent) sending)
    (due : sending.Due request session)
    (keeps : ∀ result program, (answer result program).2.sessions = program.sessions) :
    program.Sends number session request fun connection =>
      program.perform number (program.contextOf session connection) action answer := by
  refine ⟨sending, due, fun connection fresh => ?_⟩
  have sent := sends connection
  dsimp only
  unfold perform
  change Context.Exchanged _ (action.run.run (program.contextOf session connection)).1
    (action.run.run (program.contextOf session connection)).2 _ at sent
  generalize action.run.run (program.contextOf session connection) = ended at sent ⊢
  obtain ⟨outcome, context⟩ := ended
  have calls := sent.calls.trans (congrArg (· ++ _) fresh)
  cases outcome with
  | error interruption =>
      refine ⟨calls, context.session, rfl, sent.config, sent.inTransaction, ?_⟩
      intro exchange member interruption' fault
      obtain ⟨same, kept⟩ := sent.faults exchange member interruption' fault
      cases same
      exact ⟨rfl, kept⟩
  | ok result =>
      refine ⟨calls, context.session, keeps _ _, sent.config, sent.inTransaction, ?_⟩
      intro exchange member interruption fault
      cases (sent.faults exchange member interruption fault).1

/-- A request that runs an action with at most one query. -/
theorem perform_asks {α : Type} {action : Action α} {answer : α → Program → Reply × Program}
    (asks : action.Asks (program.contextOf session .silent)) (other : request ≠ .begin)
    (keeps : ∀ result program, (answer result program).2.sessions = program.sessions) :
    program.Sends number session request fun connection =>
      program.perform number (program.contextOf session connection) action answer := by
  obtain ⟨query?, sends⟩ := asks
  exact perform_sends sends (.asking query? fun _ => other) keeps

/-- A request that changes the session and sends nothing. -/
theorem modifySession_asks {change : Session → Session} (other : request ≠ .begin)
    (same : ∀ session : Session, session.SameTransaction (change session)) :
    program.Sends number session request fun connection =>
      program.perform number (program.contextOf session connection)
        (Action.modifySession change) fun _ program => (.done, program) :=
  perform_asks ((Action.Silent.modifySession same).asks _) other fun _ _ => rfl

/-- A request that runs an action on an instance has sent what the action sends. -/
theorem performOn_sent {α : Type} {action : Instance → Action.OnInstance α} {answer : α → Reply}
    {inst : Instance} {connection : Connection} (there : program.instances[held]? = some inst)
    (sends : (action inst).Sends (program.contextOf session .silent) sending)
    (fresh : connection.calls = []) :
    (program.performOn number (program.contextOf session connection) held action answer).Sent
      program number session (sending.exchanges session.beginsFirst connection) := by
  have sent := sends connection
  rw [performOn_of_instance there rfl]
  refine ⟨sent.calls.trans (congrArg (· ++ _) fresh), _, rfl, sent.config, sent.inTransaction,
    fun exchange member interruption fault => ?_⟩
  obtain ⟨same, kept⟩ := sent.faults exchange member interruption fault
  change (action inst (program.contextOf session connection)).1 = _ at same
  exact ⟨by rw [same]; rfl, kept⟩

/-- A request that runs an action on an instance with at most one query. -/
theorem performOn_asks {α : Type} {action : Instance → Action.OnInstance α} {answer : α → Reply}
    (here : program.sessions[number]? = some session)
    (asks : ∀ inst, (action inst).Asks (program.contextOf session .silent))
    (other : request ≠ .begin) :
    program.Sends number session request fun connection =>
      program.performOn number (program.contextOf session connection) held action answer := by
  cases there : program.instances[held]? with
  | none =>
      refine ⟨.asking none, .asking none nofun, fun connection fresh => ?_⟩
      dsimp only
      rw [performOn, there]
      exact sent_nothing here rfl rfl
  | some inst =>
      obtain ⟨query?, sends⟩ := asks inst
      exact ⟨.asking query?, .asking query? fun _ => other, fun connection fresh =>
        performOn_sent there sends fresh⟩

/-- A request that sends nothing and leaves the sessions as they are. -/
theorem unchanged_sends {step : Step} (here : program.sessions[number]? = some session)
    (silent : step.calls = []) (same : step.program.sessions = program.sessions) :
    program.Sends number session request fun _ => step :=
  ⟨.asking none, .asking none nofun, fun _ _ => sent_nothing here silent same⟩

/-- **What a request sends is settled before the connection is asked**, and it is due. -/
theorem step_sends [Hashable Digest] (here : program.sessions[number]? = some session)
    (request : Request) :
    program.Sends number session request (program.step number · request) := by
  simp only [step_of_session here]
  unfold runOn
  cases request with
  | all model statement =>
      exact perform_asks (Action.all_asks _ _ _ _) nofun fun instances program =>
        program.holdAll_sessions instances
  | first model statement =>
      refine perform_asks (Action.first_asks _ _ _ _) nofun fun inst? program => ?_
      cases inst? <;> rfl
  | allPairs left right statement =>
      exact perform_asks (Action.allPairs_asks _ _ _ _ _) nofun fun pairs program =>
        program.holdPairs_sessions pairs
  | get model key options =>
      refine perform_asks (Action.getByKey_asks _ _ _ _ _) nofun fun inst? program => ?_
      cases inst? <;> rfl
  | getByKey model key options =>
      refine perform_asks (Action.getByKey_asks _ _ _ _ _) nofun fun inst? program => ?_
      cases inst? <;> rfl
  | loadRelated parent related statement parents path =>
      dsimp only
      cases parents.mapM (program.instances[·]?) with
      | none => exact unchanged_sends here rfl rfl
      | some instances =>
          exact perform_asks (Action.loadRelated_asks _ _ _ _ instances _ _) nofun
            fun instances program => program.holdAll_sessions instances
  | compile statement =>
      exact perform_asks ((Action.still_compile _ _).silent.asks _) nofun fun _ _ => rfl
  | begin =>
      refine perform_sends (Action.beginTransaction_sends _) ?_ fun _ _ => rfl
      split
      · exact .asking none nofun
      · rename_i idle
        exact .began rfl (Bool.eq_false_iff.mpr idle)
  | commit =>
      refine perform_sends (Action.commit_sends _) ?_ fun _ _ => rfl
      split
      · rename_i active
        exact .ended (.inl rfl) active
      · exact .asking none nofun
  | rollback =>
      refine perform_sends (Action.rollback_sends _) ?_ fun _ _ => rfl
      split
      · rename_i active
        exact .ended (.inr rfl) active
      · exact .asking none nofun
  | expireAll | expungeAll | enableTracker | disableTracker | resetTracker =>
      exact modifySession_asks nofun fun _ => ⟨rfl, rfl⟩
  | recordLoad table name =>
      refine perform_asks
        (Action.Silent.asks (.bind Action.Still.session.silent fun session => ?_) _) nofun
        fun _ _ => rfl
      exact .bind (.modifySession fun _ => ⟨rfl, rfl⟩) fun _ => .pure _
  | load held name =>
      exact performOn_asks here (fun inst => Action.loadAttribute_asks inst name _) nofun
  | set held name value =>
      exact performOn_asks here (fun inst => Action.onInstance_asks
        (·.setAttribute_sameTransaction inst name value) _) nofun
  | expire held names =>
      exact performOn_asks here (fun inst => Action.onInstance_asks
        (·.expire_sameTransaction inst names) _) nofun
  | refresh held =>
      exact performOn_asks here (fun inst => Action.refresh_asks inst _) nofun
  | expunge held =>
      exact performOn_asks here (fun inst => Action.onInstance_asks
        (·.expunge_sameTransaction inst) _) nofun
  | clone held =>
      dsimp only
      cases program.instances[held]? with
      | none => exact unchanged_sends here rfl rfl
      | some inst => exact unchanged_sends here rfl rfl

end Program

/-! ## Runs -/

/-- A request on a session, with what its connection answers to queries and to other
statements. -/
structure Turn where
  session : Nat
  queries : List (Outcome (List Row))
  executions : List (Outcome Unit)
  request : Request

namespace Program

variable [Hashable Digest]

/-- The step of a turn. -/
def take (program : Program) (turn : Turn) : Step :=
  program.step turn.session ⟨turn.queries, turn.executions, []⟩ turn.request

/-- What is sent in a turn, with the answers. -/
def sentIn (program : Program) (turn : Turn) : List Exchange :=
  Connection.transcript (program.take turn).calls turn.queries turn.executions

/-- The program after a run. -/
def after (program : Program) : List Turn → Program
  | [] => program
  | turn :: rest => (program.take turn).program.after rest

theorem after_append (program : Program) (front back : List Turn) :
    program.after (front ++ back) = (program.after front).after back := by
  induction front generalizing program with
  | nil => rfl
  | cons turn rest ih => exact ih _

/-- What is sent in a run by the session of a number, with the answers. -/
def transcript (program : Program) (number : Nat) : List Turn → List Exchange
  | [] => []
  | turn :: rest =>
    (if turn.session = number then program.sentIn turn else []) ++
      (program.take turn).program.transcript number rest

end Program

/-- What is sent when it is due is in order. -/
theorem Sending.Due.allInOrder {request : Request} {session : Session} {sending : Sending}
    (due : sending.Due request session) (connection : Connection) :
    Exchange.AllInOrder session.config.autoBegin session.inTransaction
      (sending.exchanges session.beginsFirst connection) := by
  cases due with
  | began _ idle => exact ⟨.inl ⟨rfl, idle⟩, trivial⟩
  | ended ends active => exact ⟨.inr ⟨ends, active⟩, trivial⟩
  | asking query? other =>
      cases query? with
      | none => exact trivial
      | some statement =>
          unfold Sending.asking Sending.exchanges Session.beginsFirst
          dsimp only
          split
          · rename_i begins
            obtain ⟨auto, idle⟩ := Bool.and_eq_true_iff.mp begins
            have first (reply : Outcome Unit) : (Exchange.execute "BEGIN" reply).InOrder
                session.config.autoBegin session.inTransaction :=
              .inl ⟨rfl, by simpa using idle⟩
            split
            · exact ⟨first _, fun _ => rfl, trivial⟩
            · exact ⟨first _, trivial⟩
          · rename_i ready
            refine ⟨fun auto => ?_, trivial⟩
            simpa [auto] using ready

namespace Program

variable [Hashable Digest] {program : Program} {number : Nat} {session : Session}

/-- What a turn sends is settled but for the answers, and it is due. -/
theorem take_sends {turn : Turn} (here : program.sessions[turn.session]? = some session) :
    ∃ sending : Sending, sending.Due turn.request session ∧ ∀ queries executions,
      let exchanges := sending.exchanges session.beginsFirst ⟨queries, executions, []⟩
      program.sentIn { turn with queries, executions } = exchanges ∧
        (program.take { turn with queries, executions }).Sent program turn.session session
          exchanges := by
  obtain ⟨sending, due, sends⟩ := step_sends here turn.request
  refine ⟨sending, due, fun queries executions => ?_⟩
  have sent := sends ⟨queries, executions, []⟩ rfl
  refine ⟨?_, sent⟩
  unfold sentIn take
  dsimp only
  rw [sent.calls]
  exact sending.transcript_exchanges _ _

/-- **A turn of a session is in order** and settles whether it is in a transaction. -/
theorem take_inOrder (here : program.sessions[number]? = some session) {turn : Turn}
    (own : turn.session = number) :
    (∃ after, (program.take turn).program.sessions[number]? = some after ∧
      after.config = session.config ∧
      after.inTransaction = (program.sentIn turn).foldl Exchange.settle session.inTransaction) ∧
      Exchange.AllInOrder session.config.autoBegin session.inTransaction
        (program.sentIn turn) := by
  subst own
  obtain ⟨sending, due, sends⟩ := take_sends here
  obtain ⟨sent, -, after, sessions, config, settled, -⟩ := sends turn.queries turn.executions
  rw [show program.sentIn turn = _ from sent]
  refine ⟨⟨after, ?_, config, settled⟩, due.allInOrder _⟩
  rw [show (program.take turn).program.sessions = _ from sessions,
    List.getElem?_set_self (List.getElem?_eq_some_iff.mp here).1]

/-- A turn of another session changes nothing. -/
theorem take_other (here : program.sessions[number]? = some session) {turn : Turn}
    (other : turn.session ≠ number) :
    (program.take turn).program.sessions[number]? = some session := by
  unfold take
  cases there : program.sessions[turn.session]? with
  | none => rwa [step_of_no_session there]
  | some own =>
      obtain ⟨_, _, sends⟩ := step_sends there turn.request
      obtain ⟨-, after, sessions, -⟩ := sends ⟨turn.queries, turn.executions, []⟩ rfl
      rwa [sessions, List.getElem?_set_ne other]

/-- **A run of any length is in order**, whatever is answered. -/
theorem after_inOrder (here : program.sessions[number]? = some session) (turns : List Turn) :
    (∃ after, (program.after turns).sessions[number]? = some after ∧
      after.config = session.config ∧
      after.inTransaction =
        (program.transcript number turns).foldl Exchange.settle session.inTransaction) ∧
      Exchange.AllInOrder session.config.autoBegin session.inTransaction
        (program.transcript number turns) := by
  induction turns generalizing program session with
  | nil => exact ⟨⟨session, here, rfl, rfl⟩, trivial⟩
  | cons turn rest ih =>
      unfold Program.after transcript
      by_cases own : turn.session = number
      · obtain ⟨⟨middle, there, config, settled⟩, ordered⟩ := take_inOrder here own
        obtain ⟨⟨after, found, config', settled'⟩, ordered'⟩ := ih there
        rw [if_pos own, List.foldl_append, Exchange.allInOrder_append, ← settled]
        rw [config] at ordered'
        exact ⟨⟨after, found, config'.trans config, settled'⟩, ordered, ordered'⟩
      · rw [if_neg own]
        exact ih (take_other here own)

/-- **A `BEGIN` that a request sends on its own** goes before a query, which the request sends
next as soon as the `BEGIN` is answered without a fault, and only then. -/
theorem take_begins (here : program.sessions[number]? = some session) {turn : Turn}
    (own : turn.session = number) (other : turn.request ≠ .begin) {reply : Outcome Unit}
    (began : .execute "BEGIN" reply ∈ program.sentIn turn) :
    session.config.autoBegin = true ∧ ∃ statement,
      (reply ≠ .ok () → program.sentIn turn = [.execute "BEGIN" reply]) ∧
        ∀ queries executions, executions.headD (.ok ()) = .ok () →
          program.sentIn { turn with queries, executions } =
            [.execute "BEGIN" (.ok ()), .query statement (queries.headD (.ok []))] := by
  subst own
  obtain ⟨sending, due, sends⟩ := take_sends here
  have sent (queries : List (Outcome (List Row))) (executions : List (Outcome Unit)) :=
    (sends queries executions).1
  rw [show program.sentIn turn = _ from sent turn.queries turn.executions] at began ⊢
  cases due with
  | began asked => exact absurd asked other
  | ended ends =>
      simp only [Sending.exchanges, List.mem_singleton, Exchange.execute.injEq] at began
      rw [← began.1] at ends
      exact absurd ends (by decide)
  | asking query? =>
      cases query? with
      | none => cases began
      | some statement =>
          cases begins : session.beginsFirst with
          | false =>
              rw [begins] at began
              cases List.mem_singleton.mp began
          | true =>
              refine ⟨(Bool.and_eq_true_iff.mp begins).1, statement, ?_, ?_⟩
              · rw [begins] at began
                intro refused
                unfold Sending.asking Sending.exchanges at began ⊢
                dsimp only at began ⊢
                rw [if_pos rfl] at began ⊢
                generalize turn.executions.headD (.ok ()) = answer at began ⊢
                cases answer with
                | ok _ =>
                    rcases List.mem_cons.mp began with same | queried
                    · cases same
                      exact absurd rfl refused
                    · cases List.mem_singleton.mp queried
                | error interruption =>
                    cases List.mem_singleton.mp began
                    rfl
              · intro queries executions accepted
                rw [sent, begins]
                unfold Sending.asking Sending.exchanges
                dsimp only
                rw [if_pos rfl, accepted]

/-- **Transactions are well bracketed in every run from fresh sessions**, whatever is answered.
The statements that began and ended transactions alternate, the last of them tells whether the
session is in one, and everything that is sent is in order where it is sent. A `BEGIN` on its own
goes before a query. -/
theorem transactions_bracketed {schema : Schema} {configs : List Config} {number : Nat}
    {config : Config} (here : configs[number]? = some config) (turns : List Turn) :
    let program := (ofConfigs schema configs).after turns
    let sent := (ofConfigs schema configs).transcript number turns
    (∃ session, program.sessions[number]? = some session ∧ session.config = config ∧
        session.inTransaction = Exchange.leavesOpen sent) ∧
      Bracketed (Exchange.accepted sent) ∧
      (∀ front exchange back, sent = front ++ exchange :: back →
        exchange.InOrder config.autoBegin (Exchange.leavesOpen front)) ∧
      ∀ turn : Turn, turn.session = number → turn.request ≠ .begin → ∀ reply,
        .execute "BEGIN" reply ∈ program.sentIn turn →
          config.autoBegin = true ∧ ∃ statement,
            (reply ≠ .ok () → program.sentIn turn = [.execute "BEGIN" reply]) ∧
              ∀ queries executions, executions.headD (.ok ()) = .ok () →
                program.sentIn { turn with queries, executions } =
                  [.execute "BEGIN" (.ok ()), .query statement (queries.headD (.ok []))] := by
  intro program sent
  have fresh : (ofConfigs schema configs).sessions[number]? = some (.ofConfig config) := by
    rw [ofConfigs, List.getElem?_map, here]
    rfl
  obtain ⟨⟨session, found, settings, settled⟩, ordered⟩ := after_inOrder fresh turns
  change Exchange.AllInOrder config.autoBegin false sent at ordered
  refine ⟨⟨session, found, settings, ?_⟩, (Exchange.bracketed_of_allInOrder ordered).1, ?_, ?_⟩
  · exact settled.trans (Exchange.settle_eq_leavesOpen ordered)
  · intro front exchange back cut
    rw [cut] at ordered
    obtain ⟨before, next, -⟩ := (Exchange.allInOrder_append front (exchange :: back)).mp ordered
    rwa [← Exchange.settle_eq_leavesOpen before]
  · intro turn own other reply began
    have begins := take_begins found own other began
    rwa [settings] at begins

end Program

/-- A session whose first `BEGIN` is cancelled, and whose first `COMMIT` fails. It ends outside a
transaction, and would begin one before its next query only. -/
theorem Catalogue.bookshop_brackets :
    let turns : List Turn := [
      ⟨0, [], [.error (.cancelled "timeout")], .begin⟩,
      ⟨0, [.error (.cancelled "timeout")], [], everything book⟩,
      ⟨0, [], [.error (.failed (.custom "locked"))], .commit⟩,
      ⟨0, [.ok [bookRow "Emma"]], [], everything book⟩,
      ⟨0, [], [], .commit⟩]
    let program := (Program.ofConfigs schema [.default]).after turns
    (∃ session, program.sessions[0]? = some session ∧ session.inTransaction = false) ∧
      Bracketed ["BEGIN", "COMMIT"] ∧
      program.sentIn ⟨0, [], [.error (.cancelled "timeout")], everything book⟩ =
        [.execute "BEGIN" (.error (.cancelled "timeout"))] := by
  intro turns program
  have statements : Exchange.accepted
      ((Program.ofConfigs schema [.default]).transcript 0 turns) = ["BEGIN", "COMMIT"] := by
    decide +kernel
  have here : [Config.default][0]? = some .default := rfl
  obtain ⟨⟨session, found, -, settled⟩, bracketed, -, begins⟩ :=
    Program.transactions_bracketed here turns
  rw [statements] at bracketed
  rw [Exchange.leavesOpen, statements] at settled
  refine ⟨⟨session, found, settled⟩, bracketed, ?_⟩
  have tried : (program.sentIn ⟨0, [], [.error (.cancelled "timeout")], everything book⟩).any
      (fun
        | .execute sql (.error (.cancelled "timeout")) => decide (sql = "BEGIN")
        | _ => false) := by
    decide +kernel
  obtain ⟨exchange, began, which⟩ := List.any_eq_true.mp tried
  split at which
  · obtain rfl := of_decide_eq_true which
    obtain ⟨-, statement, refused, -⟩ := begins _ rfl (by simp [everything]) _ began
    exact refused nofun
  · cases which

end LazyMapper
