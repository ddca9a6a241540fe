import LazyMapper.Proofs.Session.Database
import LazyMapper.Proofs.Session.Related
import LazyMapper.Proofs.Statement.KeyQueries
import LazyMapper.Proofs.Statement.Resolving
import LazyMapper.Proofs.Statement.Selection

/-!
# What is selected is loaded

The select list of a statement has the columns of its eager attributes, and those of all primary
keys. A row with the selected columns is merged into the entry of its key, where everything that the
row selects is loaded afterwards (`Action.MergesRow.loads`). So the instances that a request returns
for such rows have every eager attribute of their plan loaded
(`Program.eager_attributes_selected_and_loaded`).
-/

set_option autoImplicit false

namespace LazyMapper

/-! ## Valid mappings -/

section Sound

variable {models : String → Model} {before after : Configured}

theorem Learns.sound (learns : Learns (Entity.Typed models) before after)
    (sound : Configured.Sound models before) : Configured.Sound models after := by
  intro name member
  rcases learns.checked name member with earlier | ⟨entity, typed, rfl, valid⟩
  · exact sound name earlier
  · rwa [typed]

theorem Configured.Sound.valid (sound : Configured.Sound models after) {entity : Entity}
    (typed : entity.Typed models) (checked : entity.typeName ∈ after) : entity.Valid := by
  have valid := sound entity.typeName checked
  rw [typed] at valid
  exact Entity.valid_of_validate valid

end Sound

/-! ## Select lists -/

section SelectLists

variable {models : String → Model} {schema : Schema} {remembered after : Configured}

/-- **The select list of a statement that compiles** has the columns of its eager attributes, and
those of all primary keys. -/
theorem Statement.select_list_eq (declared : schema.Typed models) {dialect : Sql.Dialect}
    {statement : Statement} {compiled : CompiledStatement} (typed : statement.Typed models)
    (sound : Configured.Sound models remembered)
    (ran : (statement.compile schema dialect).run.run remembered = (.ok compiled, after)) :
    List.Forall₂ (fun entity plan => plan.Suits entity) statement.entities compiled.plans ∧
      compiled.sql = "SELECT " ++
        ", ".intercalate ((statement.eagerItems compiled.plans).map (·.toText dialect)) ++
        " FROM " ++ ", ".intercalate (statement.entities.map Entity.table) ++
        compiled.query.clausesText dialect ∧
      ∀ entity ∈ statement.entities, ∀ name ∈ entity.primaryKey, ∃ field,
        entity.field? name = some field ∧
          statement.item entity field.column ∈ statement.eagerItems compiled.plans := by
  have checks : Configuring.Checks (Entity.Typed models) (statement.compile schema dialect)
      remembered _ := statement.compile_checks declared dialect typed
  obtain ⟨learns, compiles, checked⟩ := checks.of_run ran
  have valid : ∀ entity ∈ statement.entities, entity.Valid := fun entity member =>
    (learns.sound sound).valid (typed entity member) (checked entity member)
  have items := Statement.items_eq compiles valid
  refine ⟨compiles.plans, ?_, fun entity member name key => ?_⟩
  · rw [CompiledStatement.sql, CompiledStatement.build, compiles.dialect, Sql.Query.build_text,
      Sql.Query.selectListText, items]
    have tables : compiled.query.tables = statement.entities.map Entity.table := by
      rw [compiles.query]
      rfl
    rw [tables]
  · exact exists_key_mem_eagerItems compiles.plans member (valid entity member) key

/-- The columns for related instances are those loaded with the row, and at most the one that they
are joined by. -/
theorem LoadPlan.columnsWith_eq_append (plan : LoadPlan) (column : String) :
    ∃ joined, plan.columnsWith column = plan.eagerColumns ++ joined ∧
      (joined = [] ∨ joined = [column]) := by
  unfold columnsWith
  dsimp only
  split
  · exact ⟨[], (List.append_nil _).symm, .inl rfl⟩
  · split
    · exact ⟨[column], rfl, .inr rfl⟩
    · exact ⟨[], (List.append_nil _).symm, .inl rfl⟩

/-- **The select list of related instances** has the columns of the eager attributes of the plan at
their path, those of the primary key among them, and at most the one that they are joined by. -/
theorem CompiledStatement.related_select_list_eq {compiled : CompiledStatement} {text : String}
    {parent target : Entity} {found : PathPlan} (typed : target.Typed models)
    (sound : Configured.Sound models remembered)
    (ran : (compiled.planAt schema text parent target).run.run remembered = (.ok found, after))
    (dialect : Sql.Dialect) (column : String) (keys : List Value) :
    let eager := target.fields.filter (found.plan.isEager ·.name)
    (∃ joined, (joined = [] ∨ joined = [column]) ∧
      ((found.plan.queryRelated column keys).build dialect).1 =
        dialect.selection (eager.map Field.column ++ joined) target.table ++ " WHERE " ++
          dialect.membership dialect.reference column keys.length) ∧
      ∀ name ∈ target.primaryKey, ∃ field ∈ eager, target.field? name = some field := by
  intro eager
  have checks : Configuring.Checks (Entity.Typed models) (compiled.planAt schema text parent target)
      remembered _ := compiled.planAt_checks text parent typed
  obtain ⟨learns, suits, checked⟩ := checks.of_run ran
  have valid := (learns.sound sound).valid typed checked
  obtain ⟨joined, columns, most⟩ := found.plan.columnsWith_eq_append column
  refine ⟨⟨joined, most, ?_⟩, fun name key => ?_⟩
  · rw [LoadPlan.queryRelated_text, columns, suits.eagerColumns_eq valid, suits.owner]
  · obtain ⟨field, lookup⟩ := Option.isSome_iff_exists.mp (valid.keyed name key)
    refine ⟨field, List.mem_filter.mpr ⟨Entity.mem_of_field? lookup, ?_⟩, lookup⟩
    rw [Entity.name_of_field? lookup]
    exact suits.isEager_of_key valid lookup key

end SelectLists

/-! ## Rows that are merged -/

/-- The row has the columns that the text of a query selects, and no others. -/
def Row.Answers (row : Row) (dialect : Sql.Dialect) (sql : String) : Prop :=
  ∃ rest, dialect.readSelectList sql = some (row.columns, rest)

/-- Every attribute that the plan of an instance loads with the row is loaded, in the copy that the
instance has and in the entry behind it. -/
def Session.HasEager (session : Session) (inst : Instance) : Prop :=
  ∀ name, inst.plan.isEager name → inst.isLoaded name ∧ session.isLoaded inst name

/-- The live entry behind an instance has loaded what was loaded when the instance took its copy. -/
def Session.Backs (session : Session) (inst : Instance) : Prop :=
  ∃ entry, session.live? inst.key = some entry ∧ entry.handle = inst.handle ∧
    ∀ index, index ∈ inst.loaded → index ∈ entry.loaded

theorem Session.Backs.isLoaded {session : Session} {inst : Instance} {name : String}
    (backs : session.Backs inst) (loaded : inst.isLoaded name) : session.isLoaded inst name := by
  obtain ⟨entry, live, handle, keeps⟩ := backs
  have found : session.entryOf? inst = some entry :=
    Option.filter_eq_some_iff.mpr ⟨(Option.filter_eq_some_iff.mp live).1, beq_iff_eq.mpr handle⟩
  obtain ⟨index, position, there⟩ := (Option.any_eq_true _ _).mp loaded
  rw [Session.isLoaded, position, Option.any_some, found, Option.any_some]
  exact keeps index there

namespace Action

variable [Hashable Digest] {model : Model} {plan : LoadPlan} {row : Row} {rows : List Row}
  {key : Key} {entry : Entry} {inst : Instance} {instances : List Instance}
  {before context after : Context} {statement : String × List Value}

/-- A row that is merged leaves the instances that were there backed. -/
theorem MergesRow.backs (merged : MergesRow model row before after key entry)
    (keyed : model.rowKey? row = some key) (ready : before.session.Ready model)
    (backs : before.session.Backs inst) : after.session.Backs inst := by
  obtain ⟨old, live, handle, keeps⟩ := backs
  by_cases own : inst.key = key
  · subst own
    obtain ⟨rfl, taken⟩ := merged.absorbs old live
    have there := (Option.filter_eq_some_iff.mp live).1
    have size := (ready.entries _ old there (rowKey?_typeName keyed)).size
    refine ⟨_, merged.live?_eq, (EntryChange.apply_handle old _).trans handle, ?_⟩
    exact fun index loaded => (Entry.mem_absorb size taken).mpr (.inl (keeps index loaded))
  · refine ⟨old, ?_, handle, keeps⟩
    rwa [Session.live?, merged.find?_eq, if_neg own]

/-- Rows that are merged leave the instances that were there backed. -/
theorem MergesAll.keeps_backs (merges : MergesAll model plan rows context instances after)
    (ready : context.session.Ready model) (backs : context.session.Backs inst) :
    after.session.Backs inst := by
  induction merges with
  | nil => exact backs
  | cons keyed merged _ ih => exact ih (merged.ready keyed ready) (merged.backs keyed ready backs)

/-- **The instances of merged rows** have the plan and are backed, and each has loaded what one of
the rows selects. -/
theorem MergesAll.loads (merges : MergesAll model plan rows context instances after)
    (ready : context.session.Ready model) : ∀ inst ∈ instances,
      inst.plan = plan ∧ after.session.Backs inst ∧ ∃ row ∈ rows,
        ∀ index field, model.entity.fields[index]? = some field → row.selects field.column →
          index ∈ inst.loaded := by
  induction merges with
  | nil => exact List.forall_mem_nil _
  | @cons row rows before middle after key entry instances keyed merged rest ih =>
      have ready' := merged.ready keyed ready
      refine List.forall_mem_cons.mpr ⟨⟨rfl, ?_, row, List.mem_cons_self, ?_⟩, ?_⟩
      · exact rest.keeps_backs ready' ⟨entry, merged.live?_eq, rfl, fun _ loaded => loaded⟩
      · exact fun index field here selects => merged.loads keyed ready here selects
      · intro inst member
        obtain ⟨same, backs, other, listed, loads⟩ := ih ready' inst member
        exact ⟨same, backs, other, List.mem_cons_of_mem _ listed, loads⟩

/-- Rows with all eager columns of the plan give instances with all eager attributes. -/
theorem MergesAll.hasEager (merges : MergesAll model plan rows context instances after)
    (ready : context.session.Ready model) (suits : plan.Suits model.entity)
    (full : ∀ row ∈ rows, plan.eagerColumns ⊆ row.columns) :
    ∀ inst ∈ instances, after.session.HasEager inst := by
  intro inst member name eager
  obtain ⟨rfl, backs, row, listed, loads⟩ := merges.loads ready inst member
  obtain ⟨index, planned, position, here, selected⟩ := LoadPlan.exists_of_isEager eager
  obtain ⟨field, there, -, column⟩ := suits.exists_field here
  have selects : row.selects field.column :=
    List.contains_iff_mem.mpr (full row listed (column ▸ selected))
  have loaded : inst.isLoaded name := by
    rw [Instance.isLoaded, position]
    exact loads index field there selects
  exact ⟨loaded, backs.isLoaded loaded⟩

/-! ## Requests for lists of instances -/

/-- What has come of a query whose rows were all merged. -/
theorem queryAll_of_ok
    (ran : (query statement >>= fun rows => rows.mapM (mergeRow model plan)).run.run context =
      (.ok instances, after)) :
    ∃ rows connection, context.connection.queryReplies.headD (.ok []) = .ok rows ∧
      after.connection.calls = context.connection.calls ++ context.session.callsToBegin ++
        [.query statement.1 statement.2] ∧
      MergesAll model plan rows { context with session := context.session.begun, connection }
        instances after := by
  have sends := (query_sends statement context).bind_silent
    fun rows => Silent.mapM (silent_mergeRow model plan) rows
  have begins := sends.begins_of_ok ran
  obtain ⟨calls, connection, answered⟩ := queryAll_run model plan statement context begins
  rw [ran] at calls answered
  dsimp only at answered
  split at answered
  · cases answered
  · rename_i rows replied
    rcases answered with ⟨others, same, merges⟩ | ⟨_, failed, -⟩
    · obtain rfl := Except.ok.inj same
      exact ⟨rows, connection, replied, calls, merges⟩
    · cases failed

/-- What a request has done that returns the instances of all rows: it has found nothing to ask for,
or has sent one query for columns, the eager ones of a plan among them, and has merged every row. -/
inductive Lists (model : Model) (context : Context) : List Instance → Context → Prop where
  | nothing {after : Context} : Lists model context [] after
  | rows {plan : LoadPlan} {statement : String × List Value} {rows : List Row}
      {connection : Connection} {columns : List String} {rest : String} {configured : Configured}
      {instances : List Instance} {after : Context}
      (replied : context.connection.queryReplies.headD (.ok []) = .ok rows)
      (calls : after.connection.calls = context.connection.calls ++ context.session.callsToBegin ++
        [.query statement.1 statement.2])
      (suits : plan.Suits model.entity) (eager : plan.eagerColumns ⊆ columns)
      (selected : context.session.config.dialect.readSelectList statement.1 = some (columns, rest))
      (merges : MergesAll model plan rows
        ⟨context.session.begun, connection, context.nextHandle, configured⟩ instances after) :
      Lists model context instances after

theorem lists_of_queryAll {configured : Configured} {query : Sql.Query} {columns : List String}
    (items : query.items = columns.map .plain) (suits : plan.Suits model.entity)
    (eager : plan.eagerColumns ⊆ columns)
    (ran : (Action.query (query.build context.session.config.dialect) >>= fun rows =>
      rows.mapM (mergeRow model plan)).run.run { context with configured } =
        (.ok instances, after)) : Lists model context instances after := by
  obtain ⟨rows, connection, replied, calls, merges⟩ := queryAll_of_ok ran
  exact .rows replied calls suits eager (Sql.Query.readSelectList_build _ items) merges

theorem all_lists {models : String → Model} {schema : Schema} {selecting : Statement}
    (typed : model.Typed models) (typed' : selecting.Typed models)
    (ran : (all schema model selecting).run.run context = (.ok instances, after)) :
    Lists model context instances after := by
  obtain ⟨result, configured, compiles⟩ : ∃ result configured,
      (selecting.compile schema context.session.config.dialect).run.run context.configured =
        (result, configured) := ⟨_, _, rfl⟩
  have run := compile_run compiles
  unfold all at ran
  cases result with
  | error error =>
      rw [run_bind_of_error run] at ran
      cases ran
  | ok compiled =>
      rw [run_bind_of_ok run] at ran
      dsimp only at ran
      split at ran
      · cases ran
      · rename_i single
        unfold planFor at ran
        split at ran
        · rename_i plan found
          have made := Statement.compiles_of_run compiles
          obtain ⟨suits, -, selects⟩ := made.selects typed' typed found
          have items := (selects (by simpa using single)).items
          have build : compiled.build = compiled.query.build context.session.config.dialect := by
            rw [CompiledStatement.build, made.dialect]
          rw [build] at ran
          exact lists_of_queryAll items suits (List.Subset.refl _) ran
        · cases ran

theorem loadRelated_lists {schema : Schema} {parent : Model} {selecting : Statement}
    {parents : List Instance} {path : String}
    (ran : (loadRelated schema parent model selecting parents path).run.run context =
      (.ok instances, after)) : Lists model context instances after := by
  by_cases asks : ∃ join configured entries,
      Joins schema parent model selecting path context join configured ∧
        HoldKeys context.session join.index parents entries
  · obtain ⟨join, configured, entries, joins, holds⟩ := asks
    rw [loadRelated_run_holding joins holds] at ran
    split at ran
    · cases ran
      exact .nothing
    · rw [← joins.queryRelated_eq] at ran
      exact lists_of_queryAll rfl joins.suits (LoadPlan.eagerColumns_subset_columnsWith _ _) ran
  · obtain ⟨error, configured, failed, -⟩ := loadRelated_refused parents asks
    rw [failed] at ran
    cases ran

end Action

/-! ## Requests -/

/-- The request returns the instances of all rows of its query. -/
def Request.Lists : Request → Prop
  | .all _ _ | .loadRelated _ _ _ _ _ => True
  | _ => False

namespace Program

theorem exists_of_mem_holdAll {program : Program} {more : List Instance} {held : Nat}
    (member : held ∈ (program.holdAll more).1) :
    ∃ inst ∈ more, (program.holdAll more).2.instances[held]? = some inst := by
  induction more generalizing program with
  | nil => cases member
  | cons inst rest ih =>
      rcases List.mem_cons.mp member with rfl | later
      · refine ⟨inst, List.mem_cons_self, ?_⟩
        rw [holdAll_eq]
        simp [holding]
      · obtain ⟨other, listed, there⟩ := ih later
        exact ⟨other, List.mem_cons_of_mem _ listed, there⟩

/-- The instances that a request returns are held under their numbers. -/
theorem perform_lists {program : Program} {number : Nat} {context : Context}
    {action : Action (List Instance)} {numbers : List Nat} {ended : Step}
    (inside : number < program.sessions.length)
    (performed : program.perform number context action
      (fun instances program => (program.holdAll instances).map .instances id) = ended)
    (listed : ended.outcome = .ok (.instances numbers)) :
    ∃ instances after, action.run.run context = (.ok instances, after) ∧
      ended.calls = after.connection.calls ∧
      ended.program.sessions[number]? = some after.session ∧
      ∀ held ∈ numbers, ∃ inst ∈ instances, ended.program.instances[held]? = some inst := by
  subst performed
  unfold perform at listed ⊢
  split at listed
  · cases listed
  · rename_i instances after ran
    cases listed
    refine ⟨instances, after, ran, rfl, ?_, fun held member => exists_of_mem_holdAll member⟩
    refine (congrArg (·[number]?) (holdAll_sessions _ instances)).trans ?_
    exact List.getElem?_set_self inside

variable {models : String → Model} {schema : Schema} {configs : List Config} {program : Program}
  {number : Nat} {session : Session} {connection : Connection} {request : Request}
  {numbers : List Nat}

variable [Hashable Digest]

theorem step_lists (here : program.sessions[number]? = some session)
    (typed : request.Typed models) (lists : request.Lists)
    (listed : (program.step number connection request).outcome = .ok (.instances numbers)) :
    ∃ model instances after, model.Typed models ∧
      Action.Lists model (program.contextOf session connection) instances after ∧
      (program.step number connection request).calls = after.connection.calls ∧
      (program.step number connection request).program.sessions[number]? = some after.session ∧
      ∀ held ∈ numbers, ∃ inst ∈ instances,
        (program.step number connection request).program.instances[held]? = some inst := by
  have inside := (List.getElem?_eq_some_iff.mp here).1
  rw [step_of_session here] at listed ⊢
  cases request with
  | all model statement =>
      obtain ⟨instances, after, ran, held⟩ := perform_lists inside rfl listed
      exact ⟨model, instances, after, typed.1, Action.all_lists typed.1 typed.2 ran, held⟩
  | loadRelated parent related statement parents path =>
      unfold runOn at listed ⊢
      dsimp only at listed ⊢
      split at listed
      · cases listed
      · obtain ⟨instances, after, ran, held⟩ := perform_lists inside rfl listed
        exact ⟨related, instances, after, typed.2.1, Action.loadRelated_lists ran, held⟩
  | _ => cases lists

omit [Hashable Digest] in
/-- What goes out for one query is a single exchange. -/
theorem exchanges_query (session : Session) (statement : String × List Value)
    (replies : List (Outcome (List Row))) :
    Connection.exchanges (session.callsToBegin ++ [.query statement.1 statement.2]) replies =
      [(statement, replies.headD (.ok []))] := by
  unfold Session.callsToBegin
  split <;> rfl

/-- **Instances for rows with the selected columns have every eager attribute.** -/
theorem Reaches.lists_hasEager (declared : schema.Typed models)
    (reached : Reaches (fun _ _ _ request => request.Typed models) (ofConfigs schema configs)
      program)
    (here : program.sessions[number]? = some session) (typed : request.Typed models)
    (lists : request.Lists)
    (answered : ∀ asked rows, (asked, .ok rows) ∈ program.exchanges number connection request →
      ∀ row ∈ rows, row.Answers session.config.dialect asked.1)
    (listed : (program.step number connection request).outcome = .ok (.instances numbers)) :
    ∃ after, (program.step number connection request).program.sessions[number]? = some after ∧
      ∀ held ∈ numbers, ∃ inst,
        (program.step number connection request).program.instances[held]? = some inst ∧
          after.HasEager inst := by
  obtain ⟨model, instances, after, own, asks, calls, left, holds⟩ :=
    step_lists here typed lists listed
  refine ⟨after.session, left, fun held member => ?_⟩
  obtain ⟨inst, issued, there⟩ := holds held member
  refine ⟨inst, there, ?_⟩
  cases asks with
  | nothing => cases issued
  | @rows plan statement rows _ columns rest _ _ _ replied calls' suits eager selected merges =>
      have exchanges : program.exchanges number connection request = [(statement, .ok rows)] := by
        rw [Program.exchanges, calls, calls', List.append_assoc]
        refine (congrArg (Connection.exchanges · _) List.drop_left).trans ?_
        rw [exchanges_query]
        exact congrArg (fun reply => [(statement, reply)]) replied
      have ready := reached.ready declared id (List.mem_of_getElem? here) own
      refine merges.hasEager ⟨ready.distinct, ready.entries⟩ suits ?_ inst issued
      intro row listed
      obtain ⟨rest', read⟩ :=
        answered statement rows (exchanges ▸ List.mem_singleton_self _) row listed
      have same : row.columns = columns :=
        (Prod.mk.inj (Option.some.inj (read.symm.trans selected))).1
      rwa [same]

/-- **Eager attributes are selected, and what is selected is loaded.** The select list of a
statement that compiles has the columns of its eager attributes, entity by entity and field by
field, those of all primary keys among them. That of related instances has the eager columns of the
plan at their path, with the key, and at most the column that they are joined by. When rows are
answered with the selected columns, every instance that is returned for them has all eager
attributes of its plan. -/
theorem eager_attributes_selected_and_loaded (declared : schema.Typed models) :
    (∀ (dialect : Sql.Dialect) (statement : Statement) (compiled : CompiledStatement)
      (remembered after : Configured), statement.Typed models →
      Configured.Sound models remembered →
      (statement.compile schema dialect).run.run remembered = (.ok compiled, after) →
      List.Forall₂ (fun entity plan => plan.Suits entity) statement.entities compiled.plans ∧
        compiled.sql = "SELECT " ++
          ", ".intercalate ((statement.eagerItems compiled.plans).map (·.toText dialect)) ++
          " FROM " ++ ", ".intercalate (statement.entities.map Entity.table) ++
          compiled.query.clausesText dialect ∧
        ∀ entity ∈ statement.entities, ∀ name ∈ entity.primaryKey, ∃ field,
          entity.field? name = some field ∧
            statement.item entity field.column ∈ statement.eagerItems compiled.plans) ∧
    (∀ (dialect : Sql.Dialect) (compiled : CompiledStatement) (text : String)
      (parent target : Entity) (found : PathPlan) (remembered after : Configured)
      (column : String) (keys : List Value), target.Typed models →
      Configured.Sound models remembered →
      (compiled.planAt schema text parent target).run.run remembered = (.ok found, after) →
      let eager := target.fields.filter (found.plan.isEager ·.name)
      (∃ joined, (joined = [] ∨ joined = [column]) ∧
        ((found.plan.queryRelated column keys).build dialect).1 =
          dialect.selection (eager.map Field.column ++ joined) target.table ++ " WHERE " ++
            dialect.membership dialect.reference column keys.length) ∧
        ∀ name ∈ target.primaryKey, ∃ field ∈ eager, target.field? name = some field) ∧
    ∀ (configs : List Config) (program : Program) (number : Nat) (session : Session)
      (connection : Connection) (request : Request) (numbers : List Nat),
      Reaches (fun _ _ _ request => request.Typed models) (ofConfigs schema configs) program →
      program.sessions[number]? = some session → request.Typed models → request.Lists →
      (∀ asked rows, (asked, .ok rows) ∈ program.exchanges number connection request →
        ∀ row ∈ rows, row.Answers session.config.dialect asked.1) →
      (program.step number connection request).outcome = .ok (.instances numbers) →
      ∃ after, (program.step number connection request).program.sessions[number]? = some after ∧
        ∀ held ∈ numbers, ∃ inst,
          (program.step number connection request).program.instances[held]? = some inst ∧
            after.HasEager inst := by
  refine ⟨?_, ?_, ?_⟩
  · intro dialect statement compiled remembered after typed sound ran
    exact Statement.select_list_eq declared typed sound ran
  · intro dialect compiled text parent target found remembered after column keys typed sound ran
    exact CompiledStatement.related_select_list_eq typed sound ran dialect column keys
  · intro configs program number session connection request numbers reached here typed lists
      answered listed
    exact reached.lists_hasEager declared here typed lists answered listed

end Program

namespace Catalogue

open LoaderOption in
/-- With everything deferred but the city, a publisher is selected and loaded with its key and its
city. For its authors the column that they are joined by is selected besides their eager columns. -/
theorem city_selected_and_loaded :
    let statement := (Statement.ofEntity publisherEntity).withOptions [defer "*", undefer "city"]
    let row : Row := ⟨["pub_code", "city"], [.text "P", .text "London"]⟩
    let ended := (Program.ofConfigs schema [.default]).step 0 ⟨[.ok [row]], [], []⟩
      (.all publisher statement)
    (∃ compiled after, (statement.compile schema .postgres).run.run [] = (.ok compiled, after) ∧
      compiled.sql = "SELECT \"pub_code\", \"city\" FROM publishers" ∧
      .plain "pub_code" ∈ statement.eagerItems compiled.plans ∧
      ∃ found after', (compiled.planAt schema "authors" publisherEntity authorEntity).run.run [] =
        (.ok found, after') ∧
      ((found.plan.queryRelated "publisher_id" [.text "P"]).build .postgres).1 =
        "SELECT \"id\", \"name\", \"publisher_id\" FROM authors WHERE \"publisher_id\" IN ($1)" ∧
      ∃ field, authorEntity.field? "id" = some field ∧ found.plan.isEager field.name) ∧
    ∃ session inst, ended.program.sessions[0]? = some session ∧
      ended.program.instances[0]? = some inst ∧ session.isLoaded inst "city" := by
  intro statement row ended
  obtain ⟨selects, relates, loads⟩ := Program.eager_attributes_selected_and_loaded schema_typed
  have typed : statement.Typed modelOf := (everything_typed publisher rfl).2
  have sound : Configured.Sound modelOf [] := nofun
  obtain ⟨compiled, after, ran, text, found, after', planned, text'⟩ : ∃ compiled after,
      (statement.compile schema .postgres).run.run [] = (.ok compiled, after) ∧
      compiled.sql = "SELECT \"pub_code\", \"city\" FROM publishers" ∧ ∃ found after',
        (compiled.planAt schema "authors" publisherEntity authorEntity).run.run [] =
          (.ok found, after') ∧
        ((found.plan.queryRelated "publisher_id" [.text "P"]).build .postgres).1 =
          "SELECT \"id\", \"name\", \"publisher_id\" FROM authors WHERE \"publisher_id\" IN ($1)" :=
    ⟨_, _, rfl, by decide +kernel, _, _, rfl, by decide +kernel⟩
  refine ⟨⟨compiled, after, ran, text, ?_, found, after', planned, text', ?_⟩, ?_⟩
  · obtain ⟨-, -, keys⟩ := selects .postgres statement compiled [] after typed sound ran
    obtain ⟨field, lookup, listed⟩ := keys publisherEntity (List.mem_singleton_self _) "code"
      (List.mem_singleton_self _)
    obtain rfl := Option.some.inj (lookup.symm.trans rfl)
    exact listed
  · obtain ⟨-, keys⟩ := relates .postgres compiled "authors" publisherEntity authorEntity found []
      after' "publisher_id" [.text "P"] rfl sound planned
    obtain ⟨field, listed, lookup⟩ := keys "id" (List.mem_singleton_self _)
    exact ⟨field, lookup, (List.mem_filter.mp listed).2⟩
  · have answered : ∀ asked rows,
        (asked, .ok rows) ∈ (Program.ofConfigs schema [.default]).exchanges 0
          ⟨[.ok [row]], [], []⟩ (.all publisher statement) →
        ∀ row ∈ rows, row.Answers .postgres asked.1 := by
      intro asked rows member row' listed
      obtain ⟨rfl, rows⟩ := Prod.mk.inj (List.mem_singleton.mp member)
      obtain rfl := Except.ok.inj rows
      obtain rfl := List.mem_singleton.mp listed
      let query := Sql.Query.select (["pub_code", "city"].map .plain) ["publishers"] none
      exact ⟨_, Sql.Query.readSelectList_build .postgres (show query.items = _ from rfl)⟩
    obtain ⟨session, there, held⟩ := loads [.default] _ 0 _ ⟨[.ok [row]], [], []⟩
      (.all publisher statement) [0] .start rfl ⟨rfl, typed⟩ trivial answered rfl
    obtain ⟨inst, issued, eager⟩ := held 0 (List.mem_singleton_self _)
    refine ⟨session, inst, there, issued, (eager "city" ?_).2⟩
    obtain rfl := Option.some.inj (issued.symm.trans rfl)
    rfl

end Catalogue

end LazyMapper
