import LazyMapper.Proofs.Session.Transactions

/-!
# Faults of the connection

A request whose connection answers with a fault ends with this fault, and its session is left as it
was (`Program.fault_keeps_session`). Compiling, taking a copy of an entry and looking up keys come
before the connection is asked, and none of them changes the session; what does change it waits for
the answer. The one exception is a transaction: a `BEGIN` that was accepted stays accepted when the
query behind it fails.

A request asks at most twice, and twice only for a query behind its `BEGIN`
(`Sending.exchanges_of_fault`).
-/

set_option autoImplicit false

namespace LazyMapper

/-- A fault does not begin or end a transaction. -/
theorem Exchange.settle_of_fault {exchange : Exchange} {interruption : Interruption}
    (fault : exchange.fault? = some interruption) (inTransaction : Bool) :
    exchange.settle inTransaction = inTransaction := by
  match exchange, fault with
  | .execute _ (.error _), _ | .query _ (.error _), _ => rfl

/-- A fault comes alone, or it is the answer to a query behind a `BEGIN`. -/
theorem Sending.exchanges_of_fault {sending : Sending} {begins : Bool} {connection : Connection}
    {exchange : Exchange} (sent : exchange ∈ sending.exchanges begins connection)
    {interruption : Interruption} (fault : exchange.fault? = some interruption) :
    sending.exchanges begins connection = [exchange] ∨
      begins = true ∧ ∃ statement, exchange = .query statement (.error interruption) ∧
        sending.exchanges begins connection = [.execute "BEGIN" (.ok ()), exchange] := by
  have alone {other : Exchange} (member : exchange ∈ [other]) : [other] = [exchange] := by
    rw [List.mem_singleton.mp member]
  cases sending with
  | nothing => cases sent
  | control sql => exact .inl (alone sent)
  | query statement =>
      unfold exchanges at sent ⊢
      dsimp only at sent ⊢
      split at sent
      · rename_i first
        rw [if_pos first]
        split at sent
        · rcases List.mem_cons.mp sent with same | queried
          · rw [same] at fault
            cases fault
          · obtain rfl := List.mem_singleton.mp queried
            refine .inr ⟨first, statement, ?_, rfl⟩
            rw [Exchange.fault?_query.mp fault]
        · exact .inl (alone sent)
      · rename_i ready
        rw [if_neg ready]
        exact .inl (alone sent)

namespace Program

variable {program : Program} {session : Session} {turn : Turn}

/-- **A fault of the connection is the outcome of the request, and leaves the session as it was.**
All entries, the positions of keys and the counts of lazy loads are the same. A transaction may have
been begun, when the fault is that of a query behind a `BEGIN` of the request itself. A statement
that fails changes nothing at all, so after a `COMMIT` or `ROLLBACK` the transaction is still
open. -/
theorem fault_keeps_session [Hashable Digest]
    (here : program.sessions[turn.session]? = some session)
    {exchange : Exchange} (sent : exchange ∈ program.sentIn turn) {interruption : Interruption}
    (fault : exchange.fault? = some interruption) :
    (program.take turn).outcome = .error interruption ∧
      ∃ after, (program.take turn).program.sessions = program.sessions.set turn.session after ∧
        (after = session ∨
          session.inTransaction = false ∧ after = { session with inTransaction := true } ∧
            ∃ statement, program.sentIn turn =
              [.execute "BEGIN" (.ok ()), .query statement (.error interruption)]) ∧
        ∀ sql reply, exchange = .execute sql reply →
          after = session ∧ (sql = "COMMIT" ∨ sql = "ROLLBACK" → session.inTransaction = true) := by
  obtain ⟨sending, due, sends⟩ := take_sends here
  obtain ⟨same, -, after, sessions, -, settled, faults⟩ := sends turn.queries turn.executions
  change program.sentIn turn = _ at same
  rw [same] at sent ⊢
  obtain ⟨ended, kept⟩ := faults exchange sent interruption fault
  refine ⟨ended, after, sessions, ?_⟩
  have ordered := due.allInOrder ⟨turn.queries, turn.executions, []⟩
  rcases Sending.exchanges_of_fault sent fault with alone | ⟨begins, statement, query, both⟩
  · rw [alone] at settled ordered
    have unchanged : after = session := by
      rw [kept, show after.inTransaction = _ from settled]
      exact congrArg (fun inTransaction => { session with inTransaction })
        (Exchange.settle_of_fault fault _)
    refine ⟨.inl unchanged, ?_⟩
    rintro sql reply rfl
    refine ⟨unchanged, fun ends => ?_⟩
    rcases ordered.1 with ⟨begin, -⟩ | ⟨-, active⟩
    · subst begin
      exact absurd ends (by decide)
    · exact active
  · rw [both] at settled ordered
    subst query
    have idle : session.inTransaction = false := by
      simpa using (Bool.and_eq_true_iff.mp begins).2
    have begun : after.inTransaction = true := settled
    exact ⟨.inr ⟨idle, begun ▸ kept, statement, both⟩, nofun⟩

end Program

/-- A session with a book whose `COMMIT` fails still has the book as it was, in the transaction that
the query for it has begun. When a query is cancelled behind its `BEGIN`, only the transaction is
left of it. -/
theorem Catalogue.bookshop_survives_faults :
    let start := Program.ofConfigs schema [.default]
    let program := start.after [⟨0, [.ok [bookRow "Emma"]], [], everything book⟩]
    let commit : Turn := ⟨0, [], [.error (.failed (.custom "locked"))], .commit⟩
    let asking : Turn := ⟨0, [.error (.cancelled "timeout")], [], everything book⟩
    (∃ session, program.sessions[0]? = some session ∧ session.inTransaction = true ∧
      session.identities.size = 1 ∧
      (program.take commit).outcome = .error (.failed (.custom "locked")) ∧
      (program.take commit).program.sessions = program.sessions.set 0 session) ∧
    (start.take asking).outcome = .error (.cancelled "timeout") ∧
      (start.take asking).program.sessions =
        [{ Session.ofConfig .default with inTransaction := true }] := by
  intro start program commit asking
  have faulted (program : Program) (turn : Turn) (interruption : Interruption)
      (faults : (program.sentIn turn).filterMap Exchange.fault? = [interruption]) :
      ∃ exchange ∈ program.sentIn turn, exchange.fault? = some interruption :=
    List.mem_filterMap.mp (faults ▸ List.mem_singleton_self interruption)
  constructor
  · have state : (program.sessions[0]?.map fun session =>
        (session.inTransaction, session.identities.size)) = some (true, 1) := by decide +kernel
    obtain ⟨session, here, both⟩ := Option.map_eq_some_iff.mp state
    obtain ⟨active, size⟩ := Prod.mk.inj both
    obtain ⟨exchange, sent, fault⟩ := faulted program commit
      (.failed (.custom "locked")) (by decide +kernel)
    obtain ⟨ended, after, sessions, kept | ⟨idle, -⟩, -⟩ :=
      Program.fault_keeps_session here sent fault
    · exact ⟨session, here, active, size, ended, kept ▸ sessions⟩
    · rw [active] at idle
      cases idle
  · have fresh : start.sessions[asking.session]? = some (.ofConfig .default) := rfl
    obtain ⟨exchange, sent, fault⟩ := faulted start asking
      (.cancelled "timeout") (by decide +kernel)
    have begun : (start.take asking).program.sessions.map Session.inTransaction = [true] := by
      decide +kernel
    obtain ⟨ended, after, sessions, kept, -⟩ :=
      Program.fault_keeps_session fresh sent fault
    refine ⟨ended, ?_⟩
    rcases kept with kept | ⟨-, kept, -⟩
    · rw [sessions, kept] at begun
      cases begun
    · rw [sessions, kept]
      rfl

end LazyMapper
