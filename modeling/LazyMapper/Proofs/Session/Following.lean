import LazyMapper.Proofs.Session.History

/-!
# The histories of actions

Every action of a session adds allowed events to the history of its request and returns nothing
but instances issued in it. There is one lemma for each action, which takes it apart and follows
it by the lemmas of the actions it is made of.
-/

set_option autoImplicit false

namespace LazyMapper

/-- Two contexts differ in connection, transaction and counts alone. -/
structure Context.SameEntries (before after : Context) : Prop where
  config : after.session.config = before.session.config
  identities : after.session.identities = before.session.identities
  keyIndices : after.session.keyIndices = before.session.keyIndices
  configured : after.configured = before.configured

theorem Context.SameEntries.trans {first second third : Context}
    (front : first.SameEntries second) (back : second.SameEntries third) :
    first.SameEntries third where
  config := back.config.trans front.config
  identities := back.identities.trans front.identities
  keyIndices := back.keyIndices.trans front.keyIndices
  configured := back.configured.trans front.configured

theorem Event.sameEntries_execute (sql : String) (inTransaction : Bool) (context : Context) :
    context.SameEntries (Event.execute sql inTransaction context) := by
  unfold Event.execute
  split <;> exact ⟨rfl, rfl, rfl, rfl⟩

/-- A row stays delivered when more happens. -/
theorem Request.Delivers.mono {request : Request} {dialect : Sql.Dialect}
    {past past' : List Event} {model : Model} {row : Row}
    (delivers : request.Delivers dialect past model row) (grown : past ⊆ past') :
    request.Delivers dialect past' model row := by
  cases delivers with
  | row loads suits selects eager answered member =>
      exact .row loads suits selects eager (grown answered) member
  | part loads which answered member => exact .part loads which (grown answered) member

namespace Action

variable [Hashable Digest] {models : String → Model} {program : Program} {request : Request}
  {past : List Event} {context : Context}

/-! ## Checking and sending -/

theorem ofConfiguring_follows {α : Type} {computation : Configuring α}
    {post : α → Configured → Prop}
    (checks : Configuring.Checks (Entity.Typed models) computation context.configured post) :
    Follows (program.Allows models request) (ofConfiguring computation) past context
      fun result past' context' => past <+: past' ∧
        ∃ names, post result names ∧ context' = { context with configured := names } := by
  unfold Follows ofConfiguring
  rw [ends_bind, ends_get]
  unfold Configuring.Checks Ends at checks
  generalize computation.run.run context.configured = outcome at checks ⊢
  obtain ⟨result, names⟩ := outcome
  rw [ends_bind, ends_modify]
  cases result with
  | error error => exact ⟨[.checked names], .single (.checked checks)⟩
  | ok value =>
      obtain ⟨learns, holds⟩ := checks
      exact ⟨[.checked names], .single (.checked learns), List.prefix_append _ _, names, holds,
        rfl⟩

/-- Compiling a statement changes nothing but the mappings that are remembered. -/
theorem compile_follows {schema : Schema} {statement : Statement}
    (declared : schema.Typed models) (selected : statement.Typed models) :
    Follows (program.Allows models request) (compile schema statement) past context
      fun compiled past' context' => past <+: past' ∧
        compiled.Compiles context.session.config.dialect statement ∧
        (∀ entity ∈ statement.entities, entity.typeName ∈ context'.configured) ∧
        context'.session = context.session := by
  refine .session ((ofConfiguring_follows
    (statement.compile_checks declared context.session.config.dialect selected)).mono ?_)
  rintro compiled past' _ ⟨grown, names, ⟨compiles, checked⟩, rfl⟩
  exact ⟨grown, compiles, checked, rfl⟩

omit [Hashable Digest] in
theorem ends_session {good : Session → Context → Prop} {bad : Interruption → Context → Prop} :
    Ends session context good bad ↔ good context.session context :=
  Iff.rfl

omit [Hashable Digest] in
theorem ends_execute {sql : String} {good : Unit → Context → Prop}
    {bad : Interruption → Context → Prop} :
    Ends (execute sql) context good bad ↔
      match context.connection.execute sql with
      | (.ok (), connection) => good () { context with connection }
      | (.error interruption, connection) => bad interruption { context with connection } := by
  unfold execute
  rw [ends_bind, ends_get]
  generalize context.connection.execute sql = answer
  obtain ⟨reply, connection⟩ := answer
  rw [ends_bind, ends_modify]
  cases reply <;> exact Iff.rfl

omit [Hashable Digest] in
/-- A statement that opens or closes a transaction is one event. -/
theorem execute_ends (sql : String) (inTransaction : Bool) (context : Context) :
    Ends (do execute sql; modifySession fun session => { session with inTransaction }) context
      (fun _ after => after = Event.execute sql inTransaction context)
      fun _ after => after = Event.execute sql inTransaction context := by
  unfold Event.execute
  rw [ends_bind, ends_execute]
  generalize context.connection.execute sql = reply
  obtain ⟨_ | _, connection⟩ := reply
  · exact rfl
  · exact rfl

omit [Hashable Digest] in
theorem beginTransaction_ends (context : Context) :
    Ends beginTransaction context (fun _ after => context.SameEntries after)
      fun _ after => context.SameEntries after := by
  unfold beginTransaction
  rw [ends_bind, ends_session]
  cases context.session.inTransaction with
  | true => exact ⟨rfl, rfl, rfl, rfl⟩
  | false =>
      have same := Event.sameEntries_execute "BEGIN" true context
      exact (execute_ends "BEGIN" true context).mono (fun _ _ after => after ▸ same)
        fun _ _ after => after ▸ same

omit [Hashable Digest] in
theorem endTransaction_ends (sql : String) (context : Context) :
    Ends (endTransaction sql) context (fun _ after => context.SameEntries after)
      fun _ after => context.SameEntries after := by
  unfold endTransaction
  rw [ends_bind, ends_session]
  cases context.session.inTransaction with
  | false => exact ⟨rfl, rfl, rfl, rfl⟩
  | true =>
      have same := Event.sameEntries_execute sql false context
      exact (execute_ends sql false context).mono (fun _ _ after => after ▸ same)
        fun _ _ after => after ▸ same

theorem execute_follows {sql : String} {inTransaction : Bool} {event : Event}
    (here : program.Allows models request past context event)
    (same : event.apply context = Event.execute sql inTransaction context) :
    Follows (program.Allows models request)
      (do execute sql; modifySession fun session => { session with inTransaction }) past context
      fun _ past' context' => past <+: past' ∧ context.SameEntries context' := by
  have history := History.single here
  rw [same] at history
  refine (execute_ends sql inTransaction context).mono ?_ ?_
  · rintro _ _ rfl
    exact ⟨_, history, List.prefix_append _ _, Event.sameEntries_execute sql _ context⟩
  · rintro _ _ rfl
    exact ⟨_, history⟩

theorem beginTransaction_follows :
    Follows (program.Allows models request) beginTransaction past context
      fun _ past' context' => past <+: past' ∧ context.SameEntries context' := by
  refine .session ?_
  cases idle : context.session.inTransaction with
  | true => exact .pure ⟨List.prefix_refl past, rfl, rfl, rfl, rfl⟩
  | false => exact execute_follows (.began idle) rfl

theorem endTransaction_follows {sql : String}
    (asked : request = .commit ∧ sql = "COMMIT" ∨ request = .rollback ∧ sql = "ROLLBACK") :
    Follows (program.Allows models request) (endTransaction sql) past context
      fun _ past' context' => past <+: past' ∧ context.SameEntries context' := by
  refine .session ?_
  cases active : context.session.inTransaction with
  | true => exact execute_follows (.ended active asked) rfl
  | false => exact .pure ⟨List.prefix_refl past, rfl, rfl, rfl, rfl⟩

/-- A query changes no entry, and its rows are known to be its answer. -/
theorem query_follows (statement : String × List Value) :
    Follows (program.Allows models request) (query statement) past context
      fun rows past' context' => past <+: past' ∧ .queried statement (.ok rows) ∈ past' ∧
        context.SameEntries context' := by
  have sent (past : List Event) (context : Context) :
      Follows (program.Allows models request)
        (do
          let answer := (← MonadState.get).connection.query statement.1 statement.2
          modify fun context => { context with connection := answer.2 }
          ExceptT.mk (pure answer.1)) past context
        fun rows past' context' => past <+: past' ∧ .queried statement (.ok rows) ∈ past' ∧
          context.SameEntries context' := by
    have sending : program.Allows models request past context (.queried statement
        (context.connection.query statement.1 statement.2).1) := .queried statement
    have history := History.single sending
    unfold Follows
    rw [ends_bind, ends_get]
    simp only [Event.apply] at history
    generalize context.connection.query statement.1 statement.2 = answer at history ⊢
    obtain ⟨reply, connection⟩ := answer
    rw [ends_bind, ends_modify]
    cases reply with
    | error interruption => exact ⟨_, history⟩
    | ok rows =>
        exact ⟨_, history, List.prefix_append _ _,
          List.mem_append_right _ List.mem_cons_self, rfl, rfl, rfl, rfl⟩
  refine .session ?_
  cases context.session.config.autoBegin with
  | false => exact sent past context
  | true =>
      refine beginTransaction_follows.bind ?_
      rintro _ past' context' ⟨grown, same⟩
      refine (sent past' context').mono ?_
      rintro rows past'' context'' ⟨grown', answered, same'⟩
      exact ⟨grown.trans grown', answered, same.trans same'⟩

/-! ## Merging rows -/

theorem mergeRecord_follows {model : Model} {row : Row} {record : Record} {key : Key}
    (loads : model ∈ request.loaded) (checked : model.entity.typeName ∈ context.configured)
    (met : (context.session.keyIndices.lookup model.table).isSome)
    (delivered : request.Delivers context.session.config.dialect past model row)
    (made : model.fromRow row = .ok record) (keyed : key = Key.ofRecord model record) :
    Follows (program.Allows models request) (mergeRecord model row record key) past context
      fun entry past' context' => past <+: past' ∧
        context'.session.identities.find? key = some entry ∧
        context'.session.config = context.session.config ∧
        context'.configured = context.configured := by
  refine .session ?_
  cases there : (context.session.identities.find? key).filter (·.state.isLive) with
  | some entry =>
      obtain ⟨found, live⟩ := Option.filter_eq_some_iff.mp there
      dsimp only
      rw [EntryChange.absorb_eq]
      refine Follows.bind (Q := fun _ past' context' => past <+: past' ∧
          context'.session.identities.find? key =
            some (EntryChange.apply entry (.absorb model row)) ∧
          context'.session.config = context.session.config ∧
          context'.configured = context.configured)
        (.modifySession (.changed found (.absorb delivered made keyed live))
          (Event.apply_changed found _) ?_) ?_
      · rw [Event.apply_changed found]
        refine ⟨List.prefix_append _ _, ?_, rfl, rfl⟩
        rw [Session.find?_withEntry, if_pos rfl]
      · intro _ past' context' holds
        exact (Follows.ofExcept fun _ _ => holds).bind fun _ _ _ holds => .pure holds
  | none =>
      have creating : program.Allows models request past context
          (.created key model record row) :=
        .created delivered loads checked met made keyed there
      have history := History.single creating
      refine ⟨_, history, List.prefix_append _ _, ?_, rfl, rfl⟩
      exact (context.session.find?_withEntry key key _).trans (if_pos rfl)

/-- A row that is merged gives out an instance of its model with the given plan. -/
theorem mergeRow_follows {model : Model} {plan : LoadPlan} {row : Row}
    (loads : model ∈ request.loaded) (suits : plan.Suits model.entity)
    (checked : model.entity.typeName ∈ context.configured)
    (delivered : request.Delivers context.session.config.dialect past model row) :
    Follows (program.Allows models request) (mergeRow model plan row) past context
      fun inst past' context' => past <+: past' ∧
        context'.session.config = context.session.config ∧
        context'.configured = context.configured ∧ .issued inst ∈ past' := by
  have config := Event.apply_config context (.met model)
  have met := context.session.meet_remembers model
  refine Follows.bind (Q := fun _ past' context' => past' = past ++ [.met model] ∧
      context' = Event.apply context (.met model))
    (.modifySession (.met (.inl loads)) rfl ⟨rfl, rfl⟩) ?_
  rintro _ _ _ ⟨rfl, rfl⟩
  refine Follows.bind (Q := fun record past' context' => model.fromRow row = .ok record ∧
      past' = past ++ [.met model] ∧ context' = Event.apply context (.met model))
    (.ofExcept fun record made => ⟨made, rfl, rfl⟩) ?_
  rintro record _ _ ⟨made, rfl, rfl⟩
  dsimp only
  have known : model.entity.typeName ∈ (Event.apply context (.met model)).configured := checked
  refine (mergeRecord_follows loads known met ?_ made rfl).bind ?_
  · rw [Event.apply_config]
    exact delivered.mono (List.subset_append_left _ _)
  rintro entry past' context' ⟨grown, there, config', names⟩
  refine .issue (.ofEntry model _ plan entry)
    (.issued there rfl (.loaded loads (names ▸ checked) suits rfl)) ?_
  exact ⟨((List.prefix_append _ _).trans grown).trans (List.prefix_append _ _),
    config'.trans config, names, List.mem_append_right _ List.mem_cons_self⟩

/-- Rows merged one after the other, by a step that follows each of them. -/
theorem mergeAll_follows {α : Type} {rows : List Row} {step : Row → Action α}
    (given : α → List Instance) (names : List String) (dialect : Sql.Dialect)
    (each : ∀ row ∈ rows, ∀ past' context', past <+: past' →
      names ⊆ context'.configured → context'.session.config.dialect = dialect →
      Follows (program.Allows models request) (step row) past' context'
        fun result past'' context'' => past' <+: past'' ∧
          context''.session.config = context'.session.config ∧
          context''.configured = context'.configured ∧
          ∀ inst ∈ given result, .issued inst ∈ past'')
    (checked : names ⊆ context.configured)
    (settings : context.session.config.dialect = dialect) :
    Follows (program.Allows models request) (rows.mapM step) past context
      fun results past' _ => ∀ inst ∈ results.flatMap given, .issued inst ∈ past' := by
  refine (Follows.mapM (fun past' context' => past <+: past' ∧
      names ⊆ context'.configured ∧ context'.session.config.dialect = dialect)
    (fun result past' => ∀ inst ∈ given result, .issued inst ∈ past') ?_ ?_
    ⟨List.prefix_refl past, checked, settings⟩).mono ?_
  · exact fun _ _ _ issued inst member => List.mem_append_left _ (issued inst member)
  · rintro row member past' context' ⟨grown, checked, settings⟩
    refine (each row member past' context' grown checked settings).mono ?_
    rintro result past'' context'' ⟨more, config, same, issued⟩
    exact ⟨more, ⟨grown.trans more, same ▸ checked, config ▸ settings⟩, issued⟩
  · rintro results past' _ ⟨-, issued⟩ inst member
    obtain ⟨result, listed, member⟩ := List.mem_flatMap.mp member
    exact issued result listed inst member

end Action

end LazyMapper
