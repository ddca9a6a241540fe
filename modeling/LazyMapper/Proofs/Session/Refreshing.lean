import LazyMapper.Proofs.Model.Keeping
import LazyMapper.Proofs.Session.Fetching
import LazyMapper.Proofs.Session.Numbering

/-!
# A refresh that is refused

A refresh assigns the values of a row to the entry itself, one after the other. What it is to leave
behind beside the values, a new set of loaded attributes, a new version and a state, is put into the
entry only after the last of them. So when the model refuses a value, the entry has its loaded
attributes, its version and its state as before, but the values in front of the refused one are
already in the record, under attributes that count as loaded.

A refused refresh therefore keeps the loaded values exactly when the values that were accepted for
loaded attributes are the ones that these had (`Program.Reaches.refused_refresh_keeps_iff`). The
other functions that take values from a row assign attributes that are not loaded only, where what
is left behind is never read.
-/

set_option autoImplicit false

namespace LazyMapper

/-- An attribute is loaded: its name is that at a position of the set. -/
def LoadPlan.Loads (plan : LoadPlan) (loaded : AttributeSet) (name : String) : Prop :=
  ∃ index ∈ loaded, ∃ planned, plan.attributes[index]? = some planned ∧ planned.name = name

theorem LoadPlan.eagerIndices_sorted (plan : LoadPlan) :
    plan.eagerIndices.Pairwise (· < ·) :=
  List.pairwise_lt_range.filter _

/-- Accepted assignments change none of the attributes named exactly when the values are those that
were held. -/
theorem Model.Keeps.assignAll_keeps_iff {model : Model} {read : Record → String → Value}
    (keeps : model.Keeps read) {before after : Record} (makes : model.Makes before)
    {assignments : List (String × Value)} (distinct : (assignments.map Prod.fst).Nodup)
    (taken : model.assignAll before assignments = (after, .ok ())) (named : String → Prop) :
    (∀ name, named name → read after name = read before name) ↔
      ∀ assignment ∈ assignments, named assignment.1 →
        assignment.2 = read before assignment.1 := by
  have assigned := keeps.assignAll makes distinct (congrArg Prod.snd taken)
  rw [taken] at assigned
  obtain ⟨given, others⟩ := assigned
  constructor
  · intro kept assignment member which
    exact (given assignment member).symm.trans (kept assignment.1 which)
  · intro same name which
    by_cases listed : name ∈ assignments.map Prod.fst
    · obtain ⟨assignment, member, rfl⟩ := List.mem_map.mp listed
      exact (given assignment member).trans (same assignment member which)
    · exact others name listed

/-- A refresh sends its query, and lets the rows be received. -/
theorem Action.refresh_run {context : Context} {inst : Instance} {entry : Entry}
    (attached : context.session.attached? inst = some entry)
    (begins : context.session.beginsFirst →
      context.connection.executeReplies.headD (.ok ()) = .ok ()) :
    let key := inst.model.keyOf entry.record
    let sent := (inst.plan.entity.queryByKey inst.plan.eagerColumns key).build
      context.session.config.dialect
    ∃ connection : Connection,
      connection.calls = context.connection.calls ++ context.session.callsToBegin ++
        [.query sent.1 sent.2] ∧
      refresh inst context =
        match context.connection.queryReplies.headD (.ok []) with
        | .error interruption => (.error interruption, inst,
            { context with session := context.session.begun, connection })
        | .ok rows => onInstance (fun session => session.receiveRefreshed inst key rows)
            { context with session := context.session.begun, connection } := by
  intro key sent
  obtain ⟨connection, run, calls⟩ := query_run context sent begins
  refine ⟨connection, calls, ?_⟩
  have replied : (queryByKey inst inst.plan.eagerColumns key).run.run context =
      (context.connection.queryReplies.headD (.ok []),
        { context with session := context.session.begun, connection }) :=
    (queryByKey_run _ _ _ context).trans run
  have request : context.session.refreshRequest inst = .ok key := by
    rw [Session.refreshRequest, context.session.attached_eq_ok.mpr attached]
    rfl
  unfold refresh
  rw [request]
  dsimp only
  unfold afterQuery
  rw [replied]
  cases context.connection.queryReplies.headD (.ok []) <;> rfl

theorem Session.receiveRefreshed_refused {session : Session} {inst : Instance} {entry : Entry}
    (attached : session.attached inst = .ok entry) (key : List Value) {row : Row}
    (rest : List Row) {record : Record} {error : Error}
    (refused : inst.model.assignAll entry.record
      (inst.plan.assignments row inst.plan.eagerIndices) = (record, .error error)) :
    session.receiveRefreshed inst key (row :: rest) =
      (.error error, inst, session.withEntry inst.key { entry with record }) := by
  have fault := congrArg Prod.snd refused
  rw [receiveRefreshed_row session attached, EntryChange.apply, Entry.assigning_of_error fault,
    refused]

namespace Program

variable {models : String → Model} {schema : Schema} {configs : List Config} {program : Program}
  {number held : Nat} {session : Session} {inst : Instance} {entry : Entry}

/-- **What a refused refresh leaves behind.** The model accepts the values of the row up to the one
that it refuses, with whose error the refresh ends. The accepted values are in the record of the
entry then; its loaded attributes, its version and its state are as before, as is the instance. If
the model keeps what it is given, the loaded attributes hold the same as before exactly when each of
them for which a value was accepted had held this value. -/
theorem Reaches.refused_refresh_keeps_iff [Hashable Digest] (declared : schema.Typed models)
    (reached : Reaches (fun _ _ _ request => request.Typed models) (ofConfigs schema configs)
      program)
    (here : program.sessions[number]? = some session)
    (holds : program.instances[held]? = some inst)
    (attached : session.attached? inst = some entry) (connection : Connection)
    (begins : session.beginsFirst → connection.executeReplies.headD (.ok ()) = .ok ())
    {row : Row} {rest : List Row}
    (answered : connection.queryReplies.headD (.ok []) = .ok (row :: rest)) {error : Error}
    (refused : (inst.model.assignAll entry.record
      (inst.plan.assignments row inst.plan.eagerIndices)).2 = .error error) :
    let ended := program.step number connection (.refresh held)
    ∃ accepted name value left record,
      inst.plan.assignments row inst.plan.eagerIndices = accepted ++ (name, value) :: left ∧
      inst.model.assignAll entry.record accepted = (record, .ok ()) ∧
      inst.model.setAttribute record name value = .error error ∧
      ended.outcome = .error (.failed error) ∧
      ended.program = program.putting number
        (session.begun.withEntry inst.key { entry with record }) held inst ∧
      ∀ read : Record → String → Value, inst.model.Keeps read →
        ((∀ name, inst.plan.Loads entry.loaded name →
            read record name = read entry.record name) ↔
          ∀ assignment ∈ accepted, inst.plan.Loads entry.loaded assignment.1 →
            assignment.2 = read entry.record assignment.1) := by
  intro ended
  obtain ⟨record, refused⟩ : ∃ record, inst.model.assignAll entry.record
      (inst.plan.assignments row inst.plan.eagerIndices) = (record, .error error) :=
    ⟨_, Prod.ext rfl refused⟩
  obtain ⟨accepted, name, value, left, cut, taken, fault⟩ := Model.assignAll_of_refused refused
  refine ⟨accepted, name, value, left, record, cut, taken, fault, ?_⟩
  obtain ⟨calls, done⟩ : ∃ calls, ended = ⟨.error (.failed error), calls, program.putting number
      (session.begun.withEntry inst.key { entry with record }) held inst⟩ := by
    have started : (program.contextOf session connection).session.attached? inst = some entry :=
      attached
    obtain ⟨connection', -, run⟩ := Action.refresh_run started begins
    rw [show (program.contextOf session connection).connection = connection from rfl,
      answered] at run
    have received := Session.receiveRefreshed_refused
      (show session.begun.attached inst = .ok entry from session.attached_eq_ok.mpr attached)
      (inst.model.keyOf entry.record) rest refused
    have performed : program.performOn number (program.contextOf session connection) held
        Action.refresh (fun _ => .done) = _ :=
      performOn_of_instance holds (run.trans (Action.onInstance_eq received)) _
    exact ⟨_, (step_of_session here connection _).trans performed⟩
  rw [done]
  refine ⟨rfl, rfl, fun read keeps => ?_⟩
  have member := List.mem_of_getElem? here
  obtain ⟨there, -, -⟩ := session.attached?_eq_some.mp attached
  have well := reached.wellTyped declared fun typed => typed
  have fits := well.entries session member inst.key entry there
  have instFits := well.instances inst (List.mem_of_getElem? holds)
  have same := instFits.model_eq fits
  have makes := reached.makes declared (fun typed => typed) session member inst.key entry there
  have context : (program.contextOf session .silent).WellTyped models := well.context here
  have valid : inst.model.entity.Valid := same ▸ context.valid fits.typed fits.checked
  have distinct := LoadPlan.nodup_assignments instFits.suits valid inst.plan.eagerIndices_sorted row
  rw [cut, List.map_append] at distinct
  exact keeps.assignAll_keeps_iff (same ▸ makes) distinct.of_append_left taken _

end Program

namespace Catalogue

/-- A row of the book whose ISBN is refused. -/
def misprintedRow (title : String) : Row :=
  ⟨["id", "title", "isbn", "author_id"], [.int 1, .text title, .int 5, .int 7]⟩

/-- When the row of a refresh has the title that the book has, and a number for its ISBN, the title
stays what it was. -/
theorem bookshop_keeps_title_refused :
    let ended := bookshop.step 0 ⟨[.ok [misprintedRow "Emma"]], [], []⟩ (.refresh 0)
    ended.outcome = .error (.failed (.mapping (.badValue "books" "isbn" "5"))) ∧
      ∃ entry, ended.program.entryAt? 0 (Key.ofValues book [.int 1]) = some entry ∧
        Model.heldAt bookEntity entry.record "title" = .text "Emma" := by
  intro ended
  have reached : Program.Reaches (fun _ _ _ request => request.Typed modelOf)
      (.ofConfigs schema [.default]) bookshop := .step .start (everything_typed book rfl)
  obtain ⟨accepted, name, value, left, record, cut, taken, -, outcome, program, kept⟩ :=
    reached.refused_refresh_keeps_iff schema_typed
      (show bookshop.sessions[0]? = some _ from rfl) (show bookshop.instances[0]? = some _ from rfl)
      (show Session.attached? _ _ = some _ from rfl)
      ⟨[.ok [misprintedRow "Emma"]], [], []⟩ nofun rfl rfl
  have listed : [("id", Value.int 1), ("title", .text "Emma"), ("isbn", .int 5),
      ("author_id", .int 7)] = accepted ++ (name, value) :: left := cut
  refine ⟨outcome, _, by rw [program]; rfl, ?_⟩
  refine (kept _ Model.ofEntity_keeps).mpr (fun assignment member _ => ?_) "title"
    ⟨1, by decide, _, rfl, rfl⟩
  match accepted, listed, taken with
  | [], _, _ => cases member
  | [_], rfl, _ =>
      obtain rfl := List.mem_singleton.mp member
      rfl
  | [_, _], rfl, _ =>
      rcases List.mem_cons.mp member with rfl | member
      · rfl
      · obtain rfl := List.mem_singleton.mp member
        rfl
  | _ :: _ :: _ :: _, listed, taken =>
      simp only [List.cons_append, List.cons.injEq] at listed
      obtain ⟨rfl, rfl, rfl, -⟩ := listed
      exact absurd (congrArg Prod.snd taken) nofun

/-- A refresh that fails at the ISBN has already changed the title, which counts as loaded under the
same version as before. -/
theorem refused_refresh_changes_title :
    let ended := bookshop.step 0 ⟨[.ok [misprintedRow "Persuasion"]], [], []⟩ (.refresh 0)
    ended.outcome = .error (.failed (.mapping (.badValue "books" "isbn" "5"))) ∧
      ∃ before after, bookshop.entryAt? 0 (Key.ofValues book [.int 1]) = some before ∧
        ended.program.entryAt? 0 (Key.ofValues book [.int 1]) = some after ∧
        book.entity.index? "title" = some 1 ∧ 1 ∈ before.loaded ∧ 1 ∈ after.loaded ∧
        before.version = after.version ∧ before.state = after.state ∧
        book.attribute? before.record "title" = some (.text "Emma") ∧
        book.attribute? after.record "title" = some (.text "Persuasion") := by
  intro ended
  exact ⟨rfl, _, _, rfl, rfl, rfl, by decide, by decide, rfl, rfl, rfl, rfl⟩

end Catalogue

end LazyMapper
