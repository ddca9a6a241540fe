import LazyMapper.Proofs.Session.Transactions

/-!
# A copy and its session agree

An attribute is read in two ways: from the copy that an instance carries (`Instance.get`), and
through the session, which has the entry behind the copy and can ask the database
(`Action.loadAttribute`). The two decide separately. When the copy is up to date they decide alike
(`Session.readRequest_get`): the session answers without sending anything what the copy tells, be it
a value or an error, and sends its one query when the copy has nothing to tell
(`Program.load_agrees_with_get`).

The plan of the instance need not be the one that the entry was loaded with, since both ways ask the
same plan which attribute is meant and how it is loaded, and the same set what is loaded.
-/

set_option autoImplicit false

namespace LazyMapper

/-- The value that a read has before anything is sent. -/
def Reading.value? : Reading → Option Value
  | .loaded value => some value
  | .fetch .. => none

variable {inst : Instance} {entry : Entry} {name : String}

/-- **The session decides on a read as the copy does**, if the copy is up to date and the row of the
entry is not gone. -/
theorem Session.readRequest_get {session : Session} (attached : session.attached? inst = some entry)
    (present : entry.state ≠ .deleted) (record : inst.record = entry.record)
    (loaded : inst.loaded = entry.loaded) (name : String) :
    (session.readRequest inst name).1.map Reading.value? = inst.get name := by
  unfold readRequest Instance.get
  rw [session.attached_eq_ok.mpr attached]
  cases inst.index name with
  | error error => rfl
  | ok index =>
      dsimp only [bind, Except.bind]
      have raises : (inst.sync entry).raisesAt index = inst.raisesAt index := rfl
      rw [if_neg present, loaded, record, raises]
      cases entry.loaded.contains index with
      | true => rfl
      | false => cases inst.raisesAt index <;> rfl

namespace Program

variable [Hashable Digest] {program : Program} {number held : Nat} {session : Session}
  (here : program.sessions[number]? = some session)
  (queries : List (Outcome (List Row))) (executions : List (Outcome Unit))
include here

theorem take_load_eq :
    program.take ⟨number, queries, executions, .load held name⟩ =
      program.performOn number (program.contextOf session ⟨queries, executions, []⟩) held
        (Action.loadAttribute · name) .value :=
  step_of_session here _ _

variable (there : program.instances[held]? = some inst)
include there

/-- What a load sends is what the decision on the read comes to. -/
theorem sentIn_load :
    program.sentIn ⟨number, queries, executions, .load held name⟩ =
      (Action.readSending session.config.dialect (session.readRequest inst name)).exchanges
        session.beginsFirst ⟨queries, executions, []⟩ := by
  unfold sentIn
  rw [take_load_eq here, (performOn_sent there (Action.loadAttribute_sends inst name _)
    rfl).calls]
  exact Sending.transcript_exchanges _ _ _

/-- A load that needs no query answers with what was decided, and leaves the sessions alone. -/
theorem take_load_of_answer (answer : Except Error Value) {copy : Instance}
    (read : session.readRequest inst name = (answer.map .loaded, copy)) :
    let turn : Turn := ⟨number, queries, executions, .load held name⟩
    (program.take turn).outcome = (Action.outcome answer).map .value ∧ program.sentIn turn = [] ∧
      (program.take turn).program.sessions = program.sessions := by
  intro turn
  have run : Action.loadAttribute inst name
      (program.contextOf session ⟨queries, executions, []⟩) =
        (Action.outcome answer, copy, program.contextOf session ⟨queries, executions, []⟩) := by
    unfold Action.loadAttribute
    rw [show (program.contextOf session _).session.readRequest inst name = _ from read]
    cases answer <;> rfl
  have sent : program.sentIn turn = [] := by
    rw [sentIn_load here _ _ there, read]
    cases answer <;> rfl
  rw [take_load_eq here, performOn_of_instance there run]
  obtain ⟨inside, rfl⟩ := List.getElem?_eq_some_iff.mp here
  exact ⟨rfl, sent, List.set_getElem_self inside⟩

/-- **Reading through the session agrees with reading the copy.** Take any program and an instance
of it that is attached, whose entry is not known to be gone, and whose copy has the record and the
loaded attributes of the entry. Whatever name is asked for, the load of it answers with the value or
the error that the copy has for it, sends nothing and leaves the sessions as they are. If the copy
has none, the load sends one query, behind a `BEGIN` if one is due and if that is answered without a
fault. The query is for the row of the instance. -/
theorem load_agrees_with_get (attached : session.attached? inst = some entry)
    (present : entry.state ≠ .deleted) (record : inst.record = entry.record)
    (loaded : inst.loaded = entry.loaded) (name : String) :
    let turn : Turn := ⟨number, queries, executions, .load held name⟩
    match inst.get name with
    | .ok (some value) =>
      (program.take turn).outcome = .ok (.value value) ∧ program.sentIn turn = [] ∧
        (program.take turn).program.sessions = program.sessions
    | .error error =>
      (program.take turn).outcome = .error (.failed error) ∧ program.sentIn turn = [] ∧
        (program.take turn).program.sessions = program.sessions
    | .ok none => ∃ index, inst.plan.index? name = some index ∧
      let columns := inst.plan.columnsAt (inst.plan.fetchIndices index entry.loaded)
      let key := inst.model.keyOf entry.record
      let query := Exchange.query
        ((inst.plan.entity.queryByKey columns key).build session.config.dialect)
        (queries.headD (.ok []))
      program.sentIn turn =
        if session.config.autoBegin && !session.inTransaction then
          match executions.headD (.ok ()) with
          | .ok () => [.execute "BEGIN" (.ok ()), query]
          | .error interruption => [.execute "BEGIN" (.error interruption)]
        else [query] := by
  intro turn
  have agrees := session.readRequest_get attached present record loaded name
  obtain ⟨error, failed⟩ | ⟨index, other, position, there', ⟨error, failed⟩ | ⟨-, ready⟩ |
    ⟨-, fetch⟩⟩ := session.readRequest_cases inst name
  · rw [← agrees, failed]
    exact take_load_of_answer here queries executions there (.error error) failed
  · rw [← agrees, failed]
    exact take_load_of_answer here queries executions there (.error error) failed
  · rw [← agrees, ready]
    exact take_load_of_answer here queries executions there (.ok _) ready
  · obtain rfl := Except.ok.inj ((session.attached_eq_ok.mpr attached).symm.trans there')
    rw [← agrees, fetch]
    refine ⟨index, position, ?_⟩
    rw [sentIn_load here _ _ there, fetch]
    rfl

end Program

namespace Catalogue

/-- The program whose only session has loaded the detail of a book. -/
def detailDesk : Program :=
  ((Program.ofConfigs schema [.default]).step 0
    ⟨[.ok [⟨["id", "book_id"], [.int 1, .int 7]⟩]], [], []⟩ (everything detail)).program

/-- The attributes of a detail are of every kind: one is loaded with the row, access to one is an
error, and one is fetched. -/
theorem detail_reads_agree :
    let load (name : String) : Turn := ⟨0, [], [], .load 0 name⟩
    (detailDesk.take (load "book_id")).outcome = .ok (.value (.int 7)) ∧
      detailDesk.sentIn (load "book_id") = [] ∧
      (detailDesk.take (load "spec")).outcome = .error (.failed (.raiseOnAccess "details" "spec")) ∧
      (detailDesk.take (load "pages")).outcome =
        .error (.failed (.loader (.unknownAttribute "details" "pages"))) ∧
      detailDesk.sentIn (load "size") =
        [.query ("SELECT \"size\" FROM details WHERE \"id\" = $1", [.int 1]) (.ok [])] := by
  intro load
  have agrees (name : String) := Program.load_agrees_with_get
    (show detailDesk.sessions[0]? = some _ from rfl) [] []
    (show detailDesk.instances[0]? = some _ from rfl)
    (show Session.attached? _ _ = some _ from rfl) (by decide) rfl rfl name
  have loaded : (detailDesk.take (load "book_id")).outcome = .ok (.value (.int 7)) ∧
      detailDesk.sentIn (load "book_id") = [] ∧ _ := agrees "book_id"
  have raising : (detailDesk.take (load "spec")).outcome =
      .error (.failed (.raiseOnAccess "details" "spec")) ∧ _ := agrees "spec"
  have unknown : (detailDesk.take (load "pages")).outcome =
      .error (.failed (.loader (.unknownAttribute "details" "pages"))) ∧ _ := agrees "pages"
  obtain ⟨_, position, sent⟩ : ∃ index, _ ∧ detailDesk.sentIn (load "size") = _ := agrees "size"
  obtain rfl := Option.some.inj position
  exact ⟨loaded.1, loaded.2.1, raising.1, unknown.1, sent⟩

end Catalogue

end LazyMapper
