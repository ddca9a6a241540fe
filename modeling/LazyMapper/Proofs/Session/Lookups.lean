import LazyMapper.Proofs.Session.Lifecycle
import LazyMapper.Proofs.Session.Versions
import LazyMapper.Proofs.Statement.Scoping

/-!
# Lookups by key

A lookup by key first compiles its statement, and fails before anything is sent where that does
not succeed. Then it asks the session: a live entry of the key answers, and nothing is sent.
Otherwise one query is sent, whose first row is merged. Either way the instance returned is a
handle to the entry of the key, with the plan merged from the options of this lookup.

A turn takes a live entry away only by detaching it or by finding its row gone
(`Program.Removes`). So whatever else is done in between, later lookups of the key find the entry
that the first one has made, and send nothing (`Program.lookup_sends_once`).
-/

set_option autoImplicit false

namespace LazyMapper

/-! ## What is checked before -/

/-- The key has the right length, and the statement of a lookup by key compiles. -/
structure Model.LooksUp (model : Model) (schema : Schema) (dialect : Sql.Dialect)
    (remembered : Configured) (values : List Value) (options : List LoaderOption)
    (compiled : CompiledStatement) (after : Configured) : Prop where
  length : values.length = model.entity.primaryKey.length
  compiles : ∃ statement,
    Action.keyStatement model ((Statement.ofEntity model.entity).withOptions options)
      model.entity.primaryKey values = .ok statement ∧
    (statement.compile schema dialect).run.run remembered = (.ok compiled, after)

/-- A lookup that compiles has the plan that is merged from what its options attach to the table
of the model. -/
theorem Model.LooksUp.exists_plan {model : Model} {schema : Schema} {dialect : Sql.Dialect}
    {remembered after : Configured} {values : List Value} {options : List LoaderOption}
    {compiled : CompiledStatement}
    (looksUp : model.LooksUp schema dialect remembered values options compiled after) :
    ∃ plan, compiled.planFor? model.entity = some plan ∧
      OptionTree.build [model.entity] options = .ok compiled.options ∧
      LoadPlan.merge model.entity (compiled.options.directivesAt model.table []) = .ok plan := by
  obtain ⟨statement, keyed, ran⟩ := looksUp.compiles
  obtain ⟨entities, given⟩ := Action.keyStatement_keeps keyed
  obtain ⟨-, built, -, planned, -⟩ :=
    (statement.compile_merges schema dialect remembered).of_run ran
  have only : statement.entities = [model.entity] := entities
  rw [only] at planned built
  rw [given] at built
  obtain ⟨plan, found, merged⟩ := LoadPlan.find?_of_distinct
    (fun _ _ merged => (LoadPlan.suits_of_merge merged).owner)
    (List.pairwise_singleton _ model.entity) planned (List.mem_singleton_self _)
  exact ⟨plan, found, built, merged⟩

namespace Action

variable {schema : Schema} {model : Model} {values : List Value} {options : List LoaderOption}
  (context : Context) {compiled : CompiledStatement} {plan : LoadPlan} {configured : Configured}

theorem planFor_eq (found : compiled.planFor? model.entity = some plan) :
    planFor compiled model = pure plan := by
  unfold planFor
  rw [found]

variable [Hashable Digest]

/-- What a lookup does once its statement is compiled. -/
theorem getByKey_run
    (looksUp : model.LooksUp schema context.session.config.dialect context.configured values
      options compiled configured)
    (found : compiled.planFor? model.entity = some plan) :
    (getByKey schema model values options).run.run context =
      (match context.session.live? (Key.ofValues model values) with
        | some entry => pure (some (.ofEntry model (Key.ofValues model values) plan entry))
        | none => do
          match ← query compiled.build with
          | row :: _ => return some (← mergeRow model plan row)
          | [] => return none : Action (Option Instance)).run.run
        { context with configured } := by
  obtain ⟨statement, keyed, ran⟩ := looksUp.compiles
  unfold getByKey
  dsimp only
  rw [if_neg (not_not.mpr looksUp.length), keyed]
  refine (run_bind_of_ok rfl).trans ?_
  refine (run_bind_of_ok (compile_run ran)).trans ?_
  rw [planFor_eq found]
  exact (run_bind_of_ok rfl).trans (run_session_bind _ _)

/-- A lookup that does not compile fails, and changes nothing but the mappings found valid. -/
theorem getByKey_run_refused
    (refused : ¬ ∃ compiled after, model.LooksUp schema context.session.config.dialect
      context.configured values options compiled after) :
    ∃ error configured, (getByKey schema model values options).run.run context =
      (.error (.failed error), { context with configured }) := by
  unfold getByKey
  dsimp only
  split
  · exact ⟨_, context.configured, rfl⟩
  · rename_i length
    cases keyed : keyStatement model ((Statement.ofEntity model.entity).withOptions options)
        model.entity.primaryKey values with
    | error error => exact ⟨error, context.configured, rfl⟩
    | ok statement =>
        obtain ⟨result, configured, ran⟩ : ∃ result configured,
            (statement.compile schema context.session.config.dialect).run.run context.configured =
              (result, configured) := ⟨_, _, rfl⟩
        cases result with
        | ok compiled =>
            exact absurd ⟨compiled, configured, not_not.mp length, statement, keyed, ran⟩ refused
        | error error =>
            refine ⟨error, configured, (run_bind_of_ok rfl).trans ?_⟩
            exact run_bind_of_error (compile_run ran)

omit [Hashable Digest] in
theorem mergeRecord_run_fresh {row : Row} {record : Record} {key : Key}
    (missing : context.session.live? key = none) :
    (mergeRecord model row record key).run.run context =
      (.ok (.ofRow model record row context.nextHandle),
        { context with
          session := context.session.withEntry key (.ofRow model record row context.nextHandle)
          nextHandle := context.nextHandle + 1 }) := by
  unfold mergeRecord
  refine (run_session_bind _ context).trans ?_
  rw [show (context.session.identities.find? key).filter (·.state.isLive) = none from missing]
  rfl

/-- A row makes a new entry for its key when this has no live one. -/
theorem mergeRow_run_fresh (plan : LoadPlan) {row : Row} {record : Record}
    (made : model.fromRow row = .ok record)
    (missing : context.session.live? (Key.ofRecord model record) = none) :
    (mergeRow model plan row).run.run context =
      (.ok (.ofEntry model (Key.ofRecord model record) plan
          (.ofRow model record row context.nextHandle)),
        { context with
          session := (context.session.meet model).withEntry (Key.ofRecord model record)
            (.ofRow model record row context.nextHandle)
          nextHandle := context.nextHandle + 1 }) := by
  have still : (context.session.meet model).live? (Key.ofRecord model record) = none := by
    rw [Session.live?, Session.meet_identities]
    exact missing
  unfold mergeRow
  rw [made]
  refine (run_bind_of_ok rfl).trans ?_
  refine (run_bind_of_ok rfl).trans ?_
  exact run_bind_of_ok
    (mergeRecord_run_fresh { context with session := context.session.meet model } still)

theorem fromRow_of_rowKey? {row : Row} {key : Key} (keyed : model.rowKey? row = some key) :
    ∃ record, model.fromRow row = .ok record ∧ Key.ofRecord model record = key := by
  obtain ⟨record, made, same⟩ := Option.map_eq_some_iff.mp keyed
  cases read : model.fromRow row with
  | error error =>
      rw [read] at made
      cases made
  | ok other =>
      rw [read] at made
      obtain rfl := Option.some.inj made
      exact ⟨other, rfl, same⟩

/-- A lookup that has to ask makes a new entry of the row it finds, when this has the key. -/
theorem getByKey_run_merged
    (looksUp : model.LooksUp schema context.session.config.dialect context.configured values
      options compiled configured)
    (found : compiled.planFor? model.entity = some plan)
    (missing : context.session.live? (Key.ofValues model values) = none)
    (begins : context.session.beginsFirst →
      context.connection.executeReplies.headD (.ok ()) = .ok ())
    {row : Row} {rest : List Row}
    (replied : context.connection.queryReplies.headD (.ok []) = .ok (row :: rest))
    (keyed : model.rowKey? row = some (Key.ofValues model values)) :
    ∃ entry after, (getByKey schema model values options).run.run context =
        (.ok (some (.ofEntry model (Key.ofValues model values) plan entry)), after) ∧
      after.session.identities.find? (Key.ofValues model values) = some entry ∧
      entry.state.isLive := by
  obtain ⟨record, made, same⟩ := fromRow_of_rowKey? keyed
  obtain ⟨connection, asked, -⟩ :=
    query_run { context with configured } compiled.build begins
  have merged := mergeRow_run_fresh
    ⟨context.session.begun, connection, context.nextHandle, configured⟩ plan made
    (by rw [same]; exact missing)
  rw [same] at merged
  have run := getByKey_run context looksUp found
  rw [missing] at run
  have queried : (query compiled.build).run.run { context with configured } =
      (.ok (row :: rest), ⟨context.session.begun, connection, context.nextHandle, configured⟩) := by
    rw [asked, replied]
  exact ⟨_, _, run.trans ((run_bind_of_ok queried).trans (run_bind_of_ok merged)),
    (Session.find?_withEntry _ _ _ _).trans (if_pos rfl), rfl⟩

end Action

namespace Program

variable {program : Program} {number : Nat} {session : Session} {model : Model}
  {values : List Value} {options : List LoaderOption} {connection : Connection} {key : Key}
  {entry : Entry} {compiled : CompiledStatement} {plan : LoadPlan} {configured : Configured}

/-! ## Steps -/

theorem perform_calls {α : Type} (program : Program) (number : Nat) (context : Context)
    (action : Action α) (answer : α → Program → Reply × Program) :
    (program.perform number context action answer).calls =
      (action.run.run context).2.connection.calls := by
  unfold perform
  split <;> rename_i ran <;> rw [ran]

variable [Hashable Digest]

/-- The step of a lookup by key that fails. -/
theorem step_getByKey_error (here : program.sessions[number]? = some session)
    {interruption : Interruption} {after : Context}
    (run : (Action.getByKey program.schema model values options).run.run
      (program.contextOf session connection) = (.error interruption, after)) :
    program.step number connection (.getByKey model values options) =
      ⟨.error interruption, after.connection.calls, program.withContext number after⟩ := by
  rw [step_of_session here]
  unfold runOn
  dsimp only
  unfold perform
  rw [run]

/-- The step of a lookup by key that finds an instance, which the program then holds. -/
theorem step_getByKey_found (here : program.sessions[number]? = some session) {inst : Instance}
    {after : Context}
    (run : (Action.getByKey program.schema model values options).run.run
      (program.contextOf session connection) = (.ok (some inst), after)) :
    program.step number connection (.getByKey model values options) =
      ⟨.ok (.instance? (some program.instances.length)), after.connection.calls,
        (program.withContext number after).holding [inst]⟩ := by
  rw [step_of_session here]
  unfold runOn
  dsimp only
  unfold perform
  rw [run]
  rfl

theorem step_getByKey_calls (here : program.sessions[number]? = some session) :
    (program.step number connection (.getByKey model values options)).calls =
      ((Action.getByKey program.schema model values options).run.run
        (program.contextOf session connection)).2.connection.calls := by
  rw [step_of_session here]
  exact perform_calls _ _ _ _ _

omit [Hashable Digest] in
/-- The program in which a request has only found more mappings valid. -/
theorem sessions_of_checked (here : program.sessions[number]? = some session)
    (configured : Configured) :
    (program.withContext number
      { program.contextOf session connection with configured }).sessions = program.sessions := by
  obtain ⟨inside, rfl⟩ := List.getElem?_eq_some_iff.mp here
  exact List.set_getElem_self inside

/-- A lookup that does not compile is over before anything is sent. -/
theorem lookup_refused (connection : Connection)
    (here : program.sessions[number]? = some session)
    (refused : ¬ ∃ compiled after, model.LooksUp program.schema session.config.dialect
      program.configured values options compiled after) :
    let ended := program.step number connection (.getByKey model values options)
    (∃ error, ended.outcome = .error (.failed error)) ∧ ended.calls = connection.calls ∧
      ended.program.sessions = program.sessions ∧
      ended.program.instances = program.instances := by
  intro ended
  obtain ⟨error, configured, run⟩ := Action.getByKey_run_refused
    (program.contextOf session connection) refused
  have same : ended = _ := step_getByKey_error here run
  rw [same]
  exact ⟨⟨error, rfl⟩, rfl, sessions_of_checked here configured, rfl⟩

/-- A live entry answers a lookup of its key. -/
theorem lookup_live (connection : Connection)
    (here : program.sessions[number]? = some session)
    (looksUp : model.LooksUp program.schema session.config.dialect program.configured values
      options compiled configured)
    (found : compiled.planFor? model.entity = some plan)
    (live : session.live? (Key.ofValues model values) = some entry) :
    let ended := program.step number connection (.getByKey model values options)
    ended.outcome = .ok (.instance? (some program.instances.length)) ∧
      ended.calls = connection.calls ∧ ended.program.sessions = program.sessions ∧
      ended.program.instances =
        program.instances ++ [.ofEntry model (Key.ofValues model values) plan entry] := by
  intro ended
  have run := Action.getByKey_run (program.contextOf session connection) looksUp found
  rw [show (program.contextOf session connection).session.live? _ = some entry from live] at run
  have same : ended = _ := step_getByKey_found here run
  rw [same]
  exact ⟨rfl, rfl, sessions_of_checked here configured, rfl⟩

/-- Without a live entry of the key, one query is sent. -/
theorem lookup_calls (here : program.sessions[number]? = some session)
    (looksUp : model.LooksUp program.schema session.config.dialect program.configured values
      options compiled configured)
    (found : compiled.planFor? model.entity = some plan)
    (missing : session.live? (Key.ofValues model values) = none)
    (begins : session.beginsFirst → connection.executeReplies.headD (.ok ()) = .ok ()) :
    (program.step number connection (.getByKey model values options)).calls =
      connection.calls ++ session.callsToBegin ++
        [.query compiled.build.1 compiled.build.2] := by
  rw [step_getByKey_calls here,
    Action.getByKey_run (program.contextOf session connection) looksUp found,
    show (program.contextOf session connection).session.live? _ = none from missing]
  refine Action.Sends.calls_of_query ((Action.query_sends _ _).bind_silent fun rows => ?_) begins
  cases rows with
  | nil => exact .pure none
  | cons row rest => exact .bind (Action.silent_mergeRow model plan row) fun _ => .pure _

/-- The row found by a lookup makes a new entry, when it has the key asked for. -/
theorem lookup_merges (here : program.sessions[number]? = some session)
    (looksUp : model.LooksUp program.schema session.config.dialect program.configured values
      options compiled configured)
    (found : compiled.planFor? model.entity = some plan)
    (missing : session.live? (Key.ofValues model values) = none)
    (begins : session.beginsFirst → connection.executeReplies.headD (.ok ()) = .ok ())
    {row : Row} {rest : List Row}
    (replied : connection.queryReplies.headD (.ok []) = .ok (row :: rest))
    (keyed : model.rowKey? row = some (Key.ofValues model values)) :
    let ended := program.step number connection (.getByKey model values options)
    ∃ entry, ended.outcome = .ok (.instance? (some program.instances.length)) ∧
      ended.program.instances =
        program.instances ++ [.ofEntry model (Key.ofValues model values) plan entry] ∧
      ended.program.entryAt? number (Key.ofValues model values) = some entry ∧
      entry.state.isLive := by
  intro ended
  obtain ⟨entry, after, run, there, live⟩ := Action.getByKey_run_merged
    (program.contextOf session connection) looksUp found missing begins replied keyed
  have stepped : ended = _ := step_getByKey_found here run
  rw [stepped]
  refine ⟨entry, rfl, rfl, entryAt?_eq_some.mpr ⟨after.session, ?_, there⟩, live⟩
  exact List.getElem?_set_self (List.getElem?_eq_some_iff.mp here).1

/-! ## How long an entry answers -/

/-- A turn takes the entry of a key away: it detaches the entry, alone or with all entries of the
session, or finds its row gone. -/
inductive Removes (program : Program) (turn : Turn) (key : Key) (entry : Entry) : Prop where
  | expunges (asked : turn.request = .expungeAll ∨ ∃ held inst, turn.request = .expunge held ∧
      program.Attaches held inst key entry) : Removes program turn key entry
  | vanishes {held : Nat} {inst : Instance}
      (asked : (∃ name, turn.request = .load held name) ∨ turn.request = .refresh held)
      (attached : program.Attaches held inst key entry)
      (answered : program.Answers turn []) : Removes program turn key entry

/-- No turn of a run takes the entry of a key in a session away. -/
def Undisturbed (number : Nat) (key : Key) : Program → List Turn → Prop
  | _, [] => True
  | program, turn :: rest =>
    (turn.session = number → ∀ entry, program.entryAt? number key = some entry →
      ¬ program.Removes turn key entry) ∧
      Undisturbed number key (program.take turn).program rest

/-- Lookups of a key in a session send nothing and change no entry. Unless they fail, they return a
handle to the entry. -/
def Serves (program : Program) (number : Nat) (key : Key) (entry : Entry) : Prop :=
  ∀ model values options connection, Key.ofValues model values = key →
    let ended := program.step number connection (.getByKey model values options)
    ended.calls = connection.calls ∧ ended.program.sessions = program.sessions ∧
      ((∃ error, ended.outcome = .error (.failed error)) ∨
        ∃ plan, ended.outcome = .ok (.instance? (some program.instances.length)) ∧
          ended.program.instances = program.instances ++ [.ofEntry model key plan entry])

/-- A live entry moves on to a live state, unless it is taken away. -/
theorem Moves.isLive {turn : Turn} {state : EntryState} (moved : program.Moves turn key entry state)
    (live : entry.state.isLive) (spared : ¬ program.Removes turn key entry) : state.isLive := by
  cases moved with
  | expires | merges | reloads => rfl
  | vanishes was asked attached answered =>
      exact absurd (.vanishes asked attached answered) spared
  | returns was =>
      rw [was] at live
      cases live
  | detaches was asked => exact absurd (.expunges asked) spared

/-- A turn keeps a live entry that it does not take away. -/
theorem take_isLive {turn : Turn} (there : program.entryAt? number key = some entry)
    (live : entry.state.isLive)
    (spared : turn.session = number → ¬ program.Removes turn key entry) :
    ∃ next, (program.take turn).program.entryAt? number key = some next ∧ next.state.isLive ∧
      next.handle = entry.handle := by
  obtain ⟨next, there', ⟨handle, same | ⟨own, moved⟩⟩ | ⟨-, replaces⟩⟩ := take_entryAt turn there
  · exact ⟨next, there', same ▸ live, handle⟩
  · exact ⟨next, there', moved.isLive live (spared own), handle⟩
  · rcases replaces.gone with gone | gone <;> (rw [gone] at live; cases live)

/-- **A live entry lasts through any run that does not take it away.** -/
theorem Undisturbed.isLive {turns : List Turn} (undisturbed : Undisturbed number key program turns)
    (there : program.entryAt? number key = some entry) (live : entry.state.isLive) :
    ∃ last, (program.after turns).entryAt? number key = some last ∧ last.state.isLive ∧
      last.handle = entry.handle := by
  induction turns generalizing program entry with
  | nil => exact ⟨entry, there, live, rfl⟩
  | cons turn rest ih =>
      obtain ⟨first, later⟩ := undisturbed
      obtain ⟨next, there', live', handle⟩ :=
        take_isLive there live fun own => first own entry there
      obtain ⟨last, found, live'', handle'⟩ := ih later there' live'
      exact ⟨last, found, live'', handle'.trans handle⟩

theorem serves_of_isLive (there : program.entryAt? number key = some entry)
    (live : entry.state.isLive) : program.Serves number key entry := by
  obtain ⟨session, here, found⟩ := entryAt?_eq_some.mp there
  rintro model values options connection rfl ended
  by_cases looksUp : ∃ compiled after, model.LooksUp program.schema session.config.dialect
      program.configured values options compiled after
  · obtain ⟨compiled, after, looksUp⟩ := looksUp
    obtain ⟨plan, planned, -⟩ := looksUp.exists_plan
    obtain ⟨outcome, calls, sessions, instances⟩ := lookup_live connection here
      looksUp planned (Option.filter_eq_some_iff.mpr ⟨found, live⟩)
    exact ⟨calls, sessions, .inr ⟨plan, outcome, instances⟩⟩
  · obtain ⟨failed, calls, sessions, -⟩ :=
      lookup_refused connection here looksUp
    exact ⟨calls, sessions, .inl failed⟩

/-- **A lookup by key sends at most one query, and no more for an entry that it has found.** It
fails before anything is sent when the key has the wrong length or its options do not compile. When
the key has a live entry, nothing is sent and no entry changes; the instance is a handle to the
entry, with the plan merged from the options. Otherwise one query is sent. When its first row has
the key, the instance is a handle to the new entry of the key, and every lookup of the key after
any run finds this entry and sends nothing, unless a turn of the run has detached the entry or has
found its row gone. -/
theorem lookup_sends_once (here : program.sessions[number]? = some session) (model : Model)
    (values : List Value) (options : List LoaderOption) (connection : Connection) :
    let key := Key.ofValues model values
    let ended := program.step number connection (.getByKey model values options)
    let looksUp := model.LooksUp program.schema session.config.dialect program.configured values
      options
    ((¬ ∃ compiled after, looksUp compiled after) →
      (∃ error, ended.outcome = .error (.failed error)) ∧ ended.calls = connection.calls ∧
        ended.program.sessions = program.sessions ∧
        ended.program.instances = program.instances) ∧
    ∀ compiled after, looksUp compiled after →
      ∃ tree plan, OptionTree.build [model.entity] options = .ok tree ∧
        LoadPlan.merge model.entity (tree.directivesAt model.table []) = .ok plan ∧
        (∀ entry, session.identities.find? key = some entry → entry.state.isLive →
          ended.outcome = .ok (.instance? (some program.instances.length)) ∧
            ended.calls = connection.calls ∧ ended.program.sessions = program.sessions ∧
            ended.program.instances =
              program.instances ++ [.ofEntry model key plan entry]) ∧
        ((∀ entry, session.identities.find? key = some entry → ¬ entry.state.isLive) →
          (session.beginsFirst → connection.executeReplies.headD (.ok ()) = .ok ()) →
          ended.calls = connection.calls ++ session.callsToBegin ++
              [.query compiled.build.1 compiled.build.2] ∧
            ∀ row rest, connection.queryReplies.headD (.ok []) = .ok (row :: rest) →
              model.rowKey? row = some key →
                ∃ entry, ended.outcome = .ok (.instance? (some program.instances.length)) ∧
                  ended.program.instances =
                    program.instances ++ [.ofEntry model key plan entry] ∧
                  ended.program.entryAt? number key = some entry ∧
                  ∀ turns, Undisturbed number key ended.program turns →
                    ∃ last, (ended.program.after turns).entryAt? number key = some last ∧
                      last.state.isLive ∧ last.handle = entry.handle ∧
                      (ended.program.after turns).Serves number key last) := by
  intro key ended looksUp
  refine ⟨lookup_refused connection here, fun compiled after looksUp => ?_⟩
  obtain ⟨plan, planned, built, merged⟩ := looksUp.exists_plan
  refine ⟨compiled.options, plan, built, merged, fun entry there live => ?_,
    fun gone begins => ?_⟩
  · exact lookup_live connection here looksUp planned (Option.filter_eq_some_iff.mpr ⟨there, live⟩)
  have missing : session.live? key = none :=
    Option.filter_eq_none_iff.mpr gone
  refine ⟨lookup_calls here looksUp planned missing begins, fun row rest replied keyed => ?_⟩
  obtain ⟨entry, outcome, instances, there, live⟩ :=
    lookup_merges here looksUp planned missing begins replied keyed
  refine ⟨entry, outcome, instances, there, fun turns undisturbed => ?_⟩
  obtain ⟨last, found, live', handle⟩ := undisturbed.isLive there live
  exact ⟨last, found, live', handle, serves_of_isLive found live'⟩

end Program

/-- A book is looked up with a query, behind the `BEGIN` that is due. It is expired, rolled back and
found once more among all books, and another lookup sends nothing. A lookup with two values for the
key is refused. -/
theorem Catalogue.bookshop_looks_up_once :
    let start := Program.ofConfigs schema [.default]
    let looked := start.step 0 ⟨[.ok [bookRow "Emma"]], [], []⟩
      (.getByKey book [.int 1] [LoaderOption.defer "isbn"])
    let turns : List Turn := [⟨0, [], [], .expireAll⟩, ⟨0, [], [], .rollback⟩,
      ⟨0, [.ok [bookRow "Persuasion"]], [], everything book⟩]
    looked.calls = [.execute "BEGIN", .query
      "SELECT \"id\", \"title\", \"author_id\" FROM books WHERE \"id\" = $1" [.int 1]] ∧
    ((looked.program.after turns).step 0 ⟨[], [], []⟩ (.getByKey book [.int 1] [])).calls = [] ∧
    (start.step 0 ⟨[], [], []⟩ (.getByKey book [.int 1, .int 2] [])).calls = [] := by
  intro start looked turns
  have here : start.sessions[0]? = some (.ofConfig .default) := rfl
  obtain ⟨-, looks⟩ := Program.lookup_sends_once here book [.int 1]
    [LoaderOption.defer "isbn"] ⟨[.ok [bookRow "Emma"]], [], []⟩
  obtain ⟨tree, plan, -, -, -, asked⟩ := looks _ _ ⟨rfl, _, rfl, rfl⟩
  obtain ⟨calls, merged⟩ := asked nofun fun _ => rfl
  obtain ⟨entry, -, -, -, lasts⟩ := merged (bookRow "Emma") [] rfl (by decide +kernel)
  have undisturbed : Program.Undisturbed 0 (Key.ofValues book [.int 1]) looked.program turns := by
    refine ⟨fun _ entry _ removes => ?_, fun _ entry _ removes => ?_,
      fun _ entry _ removes => ?_, trivial⟩
    all_goals
      rcases removes with ⟨asked | ⟨_, _, asked, _⟩⟩ | ⟨⟨_, asked⟩ | asked, _, _⟩ <;> cases asked
  obtain ⟨last, -, -, -, serves⟩ := lasts turns undisturbed
  obtain ⟨refused, -⟩ := Program.lookup_sends_once here book [.int 1, .int 2] [] ⟨[], [], []⟩
  obtain ⟨-, silent, -⟩ := refused fun ⟨_, _, looksUp⟩ => absurd looksUp.length (by decide)
  exact ⟨calls, (serves book [.int 1] [] ⟨[], [], []⟩ rfl).1, silent⟩

end LazyMapper
