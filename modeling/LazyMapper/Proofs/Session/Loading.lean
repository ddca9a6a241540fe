import LazyMapper.Proofs.Session.Following

/-!
# The histories of loading

The requests that load instances check and compile a statement, send one query for columns of
the table of their model, and merge its rows. Requests for one model differ in the query and in
what they do with its rows; those for two models split every row.
-/

set_option autoImplicit false

namespace LazyMapper

/-! ## The queries sent -/

/-- A statement over a single entity selects the columns of its plan. -/
theorem CompiledStatement.Compiles.selects {models : String → Model}
    {compiled : CompiledStatement} {dialect : Sql.Dialect} {statement : Statement} {model : Model}
    {plan : LoadPlan} (compiles : compiled.Compiles dialect statement)
    (typed : statement.Typed models) (typed' : model.Typed models)
    (found : compiled.planFor? model.entity = some plan) :
    plan.Suits model.entity ∧ model.entity ∈ statement.entities ∧
      (compiled.isMultiEntity = false →
        compiled.query.Selects model.table plan.eagerColumns) := by
  obtain ⟨selected, member, suits, alike⟩ := compiles.exists_entity found
  obtain rfl := (typed selected member).eq_of_beq typed'.entity alike
  refine ⟨suits, member, fun single => ?_⟩
  have short : ¬ 1 < statement.entities.length := by
    simpa [isMultiEntity, compiles.entities] using single
  obtain ⟨entity, only⟩ : ∃ entity, statement.entities = [entity] := by
    rw [← List.length_eq_one_iff]
    have some := List.length_pos_of_mem member
    omega
  have plans := compiles.plans
  rw [only] at member plans
  obtain rfl := List.mem_singleton.mp member
  obtain ⟨other, rest, -, none, list⟩ := List.forall₂_cons_left_iff.mp plans
  rw [List.forall₂_nil_left_iff] at none
  obtain rfl : plan = other := by
    have listed := List.mem_of_find?_eq_some found
    rw [list, none] at listed
    exact List.mem_singleton.mp listed
  rw [compiles.query, list, none]
  exact ⟨by simp [Statement.query, Statement.selectItems, only], by
    simp [Statement.query, only, Model.table]⟩

theorem LoadPlan.eagerColumns_subset_columnsWith (plan : LoadPlan) (column : String) :
    plan.eagerColumns ⊆ plan.columnsWith column := by
  unfold columnsWith
  dsimp only
  split
  · exact List.Subset.refl _
  · split
    · exact List.subset_append_left _ _
    · exact List.Subset.refl _

theorem LoadPlan.Suits.queryRelated_selects {plan : LoadPlan} {model : Model}
    (suits : plan.Suits model.entity) (column : String) (keys : List Value) :
    (plan.queryRelated column keys).Selects model.table (plan.columnsWith column) :=
  ⟨rfl, by rw [LoadPlan.queryRelated, suits.owner]; rfl⟩

namespace Action

/-- The conditions of a lookup by key change neither the entities nor the options. -/
theorem keyStatement_keeps {model : Model} {names : List String} {values : List Value}
    {statement result : Statement} (ok : keyStatement model statement names values = .ok result) :
    result.entities = statement.entities ∧ result.options = statement.options := by
  induction names generalizing values statement with
  | nil =>
      obtain rfl := Except.ok.inj ok
      exact ⟨rfl, rfl⟩
  | cons name rest ih =>
      cases values with
      | nil =>
          obtain rfl := Except.ok.inj ok
          exact ⟨rfl, rfl⟩
      | cons value others =>
          obtain ⟨column, -, ok⟩ := exists_of_bind_eq_ok ok
          have same := ih ok
          exact same

variable {models : String → Model} {program : Program} {request : Request} {past : List Event}
  {context : Context}

variable [Hashable Digest]

theorem planFor_follows (compiled : CompiledStatement) (model : Model) :
    Follows (program.Allows models request) (planFor compiled model) past context
      fun plan past' context' => compiled.planFor? model.entity = some plan ∧ past' = past ∧
        context' = context := by
  unfold planFor
  split
  · rename_i plan found
    exact .pure ⟨found, rfl, rfl⟩
  · exact .fail

/-! ## Loading instances of one model -/

section OneModel

variable {model : Model} {plan : LoadPlan} {query : Sql.Query} {columns : List String}
  (loads : request.loaded = [model]) (suits : plan.Suits model.entity)
  (selects : query.Selects model.table columns) (eager : plan.eagerColumns ⊆ columns)
include loads suits selects eager

/-- Sending a query for columns of a model's table and merging its rows. -/
theorem queryAll_follows (checked : model.entity.typeName ∈ context.configured) :
    Follows (program.Allows models request)
      (do
        let rows ← Action.query (query.build context.session.config.dialect)
        rows.mapM (mergeRow model plan)) past context
      fun instances past' _ => ∀ inst ∈ instances, .issued inst ∈ past' := by
  refine (query_follows _).bind ?_
  rintro rows past' context' ⟨-, answered, same⟩
  refine (mergeAll_follows (fun inst => [inst]) [model.entity.typeName]
    context.session.config.dialect ?_ ?_ ?_).mono ?_
  · intro row member past'' context'' grown checked settings
    refine (mergeRow_follows (by rw [loads]; exact List.mem_cons_self) suits
      (checked List.mem_cons_self) ?_).mono ?_
    · rw [settings]
      exact .row loads suits selects eager (grown.subset answered) member
    · rintro inst past''' context''' ⟨more, config, names, issued⟩
      refine ⟨more, config, names, fun other member => ?_⟩
      obtain rfl := List.mem_singleton.mp member
      exact issued
  · rw [same.configured]
    exact List.cons_subset.mpr ⟨checked, List.nil_subset _⟩
  · rw [same.config]
  · intro instances past'' _ issued inst member
    exact issued inst (List.mem_flatMap.mpr ⟨inst, member, List.mem_cons_self⟩)

/-- Sending the query and merging the first of its rows. -/
theorem queryFirst_follows (checked : model.entity.typeName ∈ context.configured) :
    Follows (program.Allows models request)
      (do
        match ← Action.query (query.build context.session.config.dialect) with
        | row :: _ => return some (← mergeRow model plan row)
        | [] => return none) past context
      fun inst? past' _ => ∀ inst ∈ inst?, .issued inst ∈ past' := by
  refine (query_follows _).bind ?_
  rintro rows past' context' ⟨-, answered, same⟩
  cases rows with
  | nil => exact .pure (by simp)
  | cons row rest =>
      refine (mergeRow_follows (by rw [loads]; exact List.mem_cons_self) suits
        (same.configured ▸ checked) ?_).bind ?_
      · rw [same.config]
        exact .row loads suits selects eager answered List.mem_cons_self
      · rintro inst past'' context'' ⟨-, -, -, issued⟩
        refine .pure fun other member => ?_
        obtain rfl := Option.some.inj member
        exact issued

end OneModel

theorem all_follows {schema : Schema} {model : Model} {statement : Statement}
    (declared : schema.Typed models) (typed : model.Typed models)
    (selected : statement.Typed models) (loads : request.loaded = [model]) :
    Follows (program.Allows models request) (all schema model statement) past context
      fun instances past' _ => ∀ inst ∈ instances, .issued inst ∈ past' := by
  refine (compile_follows declared selected).bind ?_
  rintro compiled past' context' ⟨-, compiles, checked, same⟩
  dsimp only
  cases single : compiled.isMultiEntity with
  | true => exact .fail_bind
  | false =>
      refine (planFor_follows compiled model).bind ?_
      rintro plan _ _ ⟨found, rfl, rfl⟩
      obtain ⟨suits, member, selects⟩ := compiles.selects selected typed found
      rw [CompiledStatement.build, compiles.dialect, ← same]
      exact queryAll_follows loads suits (selects single) (List.Subset.refl _)
        (checked _ member)

theorem first_follows {schema : Schema} {model : Model} {statement : Statement}
    (declared : schema.Typed models) (typed : model.Typed models)
    (selected : statement.Typed models) (loads : request.loaded = [model]) :
    Follows (program.Allows models request) (first schema model statement) past context
      fun inst? past' _ => ∀ inst ∈ inst?, .issued inst ∈ past' := by
  have limited : (statement.limit 1).Typed models := selected
  refine (all_follows declared typed limited loads).bind ?_
  intro instances past' _ issued
  exact .pure fun inst member => issued inst (List.mem_of_head? member)

theorem getByKey_follows {schema : Schema} {model : Model} {values : List Value}
    {options : List LoaderOption} (declared : schema.Typed models) (typed : model.Typed models)
    (loads : request.loaded = [model]) :
    Follows (program.Allows models request) (getByKey schema model values options) past context
      fun inst? past' _ => ∀ inst ∈ inst?, .issued inst ∈ past' := by
  unfold getByKey
  dsimp only
  split
  · exact .fail_bind
  refine Follows.bind (Q := fun statement past' context' =>
    statement.entities = [model.entity] ∧ past' = past ∧ context' = context)
    (.ofExcept fun statement ok => ⟨(keyStatement_keeps ok).1, rfl, rfl⟩) ?_
  rintro statement _ _ ⟨entities, rfl, rfl⟩
  have selected : statement.Typed models := by
    intro entity member
    rw [entities] at member
    obtain rfl := List.mem_singleton.mp member
    exact typed.entity
  refine (compile_follows declared selected).bind ?_
  rintro compiled past' context' ⟨-, compiles, checked, same⟩
  refine (planFor_follows compiled model).bind ?_
  rintro plan _ _ ⟨found, rfl, rfl⟩
  obtain ⟨suits, member, selects⟩ := compiles.selects selected typed found
  have single : compiled.isMultiEntity = false := by
    rw [CompiledStatement.isMultiEntity, compiles.entities, entities]
    rfl
  refine .session ?_
  split
  · rename_i entry hit
    obtain ⟨there, -⟩ := Option.filter_eq_some_iff.mp hit
    refine .issue (.ofEntry model _ plan entry) (.issued there rfl
      (.loaded (by rw [loads]; exact List.mem_cons_self) (checked _ member) suits rfl)) ?_
    intro inst given
    obtain rfl := Option.some.inj given
    exact List.mem_append_right _ List.mem_cons_self
  · rw [CompiledStatement.build, compiles.dialect, ← same]
    exact queryFirst_follows loads suits (selects single) (List.Subset.refl _) (checked _ member)

/-- The instances of the models at the end of a relationship path. -/
theorem loadRelated_follows {schema : Schema} {parent related : Model} {statement : Statement}
    {parents : List Instance} {path : String} (declared : schema.Typed models)
    (typed : related.Typed models) (selected : statement.Typed models)
    (loads : request.loaded = [related]) :
    Follows (program.Allows models request)
      (loadRelated schema parent related statement parents path) past context
      fun instances past' _ => ∀ inst ∈ instances, .issued inst ∈ past' := by
  refine (compile_follows declared selected).bind ?_
  rintro compiled past' context' ⟨-, compiles, -, same⟩
  refine (ofConfiguring_follows (compiled.planAt_checks path parent.entity typed.entity)).bind ?_
  rintro target past'' _ ⟨-, names, ⟨suits, checked⟩, rfl⟩
  dsimp only
  split
  · exact .fail
  refine Follows.bind (Q := fun _ past' context'' => past'' = past' ∧
    context'' = { context' with configured := names }) (.ofExcept fun _ _ => ⟨rfl, rfl⟩) ?_
  rintro column _ _ ⟨rfl, rfl⟩
  split
  · exact .fail
  refine .session (Follows.bind (Q := fun _ past' context'' => past'' = past' ∧
    context'' = { context' with configured := names }) (.ofExcept fun _ _ => ⟨rfl, rfl⟩) ?_)
  rintro values _ _ ⟨rfl, rfl⟩
  dsimp only
  split
  · exact .pure (by simp)
  · have known : related.entity.typeName ∈
        ({ context' with configured := names } : Context).configured := checked
    exact queryAll_follows loads suits
      (suits.queryRelated_selects column (distinctKeys values))
      (target.plan.eagerColumns_subset_columnsWith column) known

/-! ## Loading pairs -/

theorem mergePair_follows {left right : Model} {leftPlan rightPlan : LoadPlan} {row : Row}
    {rows : List Row} {statement : String × List Value} (loads : request.loaded = [left, right])
    (leftSuits : leftPlan.Suits left.entity) (rightSuits : rightPlan.Suits right.entity)
    (checked : [left.entity.typeName, right.entity.typeName] ⊆ context.configured)
    (answered : .queried statement (.ok rows) ∈ past) (member : row ∈ rows) :
    Follows (program.Allows models request) (mergePair left right leftPlan rightPlan row) past
      context fun pair past' context' => past <+: past' ∧
        context'.session.config = context.session.config ∧
        context'.configured = context.configured ∧
        ∀ inst ∈ [pair.1, pair.2], .issued inst ∈ past' := by
  refine (mergeRow_follows (by simp [loads]) leftSuits (checked (by simp))
    (.part loads (by simp) answered member)).bind ?_
  rintro first past' context' ⟨grown, config, names, issued⟩
  refine (mergeRow_follows (by simp [loads]) rightSuits (names ▸ checked (by simp))
    (.part loads (by simp) (grown.subset answered) member)).bind ?_
  rintro second past'' context'' ⟨more, config', names', issued'⟩
  refine .pure ⟨grown.trans more, config'.trans config, names'.trans names, ?_⟩
  intro inst listed
  rcases List.mem_cons.mp listed with rfl | listed
  · exact more.subset issued
  · obtain rfl := List.mem_singleton.mp listed
    exact issued'

theorem allPairs_follows {schema : Schema} {left right : Model} {statement : Statement}
    (declared : schema.Typed models) (leftTyped : left.Typed models)
    (rightTyped : right.Typed models) (selected : statement.Typed models)
    (loads : request.loaded = [left, right]) :
    Follows (program.Allows models request) (allPairs schema left right statement) past context
      fun pairs past' _ =>
        ∀ inst ∈ pairs.flatMap fun pair => [pair.1, pair.2], .issued inst ∈ past' := by
  refine (compile_follows declared selected).bind ?_
  rintro compiled past' context' ⟨-, compiles, checked, same⟩
  dsimp only
  split
  · exact .fail_bind
  refine (planFor_follows compiled left).bind ?_
  rintro leftPlan _ _ ⟨foundLeft, rfl, rfl⟩
  refine (planFor_follows compiled right).bind ?_
  rintro rightPlan _ _ ⟨foundRight, rfl, rfl⟩
  obtain ⟨leftSuits, leftMember, -⟩ := compiles.selects selected leftTyped foundLeft
  obtain ⟨rightSuits, rightMember, -⟩ := compiles.selects selected rightTyped foundRight
  refine (query_follows _).bind ?_
  rintro rows past'' context'' ⟨-, answered, same⟩
  refine mergeAll_follows _ [left.entity.typeName, right.entity.typeName]
    context''.session.config.dialect ?_ ?_ rfl
  · intro row member past''' context''' grown checked _
    exact mergePair_follows loads leftSuits rightSuits checked (grown.subset answered) member
  · rw [same.configured]
    exact List.cons_subset.mpr ⟨checked _ leftMember,
      List.cons_subset.mpr ⟨checked _ rightMember, List.nil_subset _⟩⟩

end Action

end LazyMapper
