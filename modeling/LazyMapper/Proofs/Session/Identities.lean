import LazyMapper.Proofs.Session.Lookups
import LazyMapper.Proofs.Session.Refreshing
import LazyMapper.Proofs.Statement.Filtering
import LazyMapper.Proofs.Statement.KeyQueries
import LazyMapper.Proofs.Statement.Selection

/-!
# Asking for an identity

A session asks for one identity in two ways. A lookup adds a condition for each value of the key to
a statement, and compiles the statement; a refresh puts a query by primary key together. The
conditions of a statement are joined one by one, which gives the condition of the query by primary
key (`Action.keyStatement_eq_ok`), and a condition does not change what else a statement compiles to
(`Statement.compile_filtered`). So for one plan and one key both send the same text with the same
parameters (`Program.identity_asked_alike`).
-/

set_option autoImplicit false

namespace LazyMapper

open Sql (Expr)

/-! ## Conditions of a statement -/

namespace Statement

/-- The statement with one equation more for each column and its value. -/
def filterAll (statement : Statement) (items : List (String × Value)) : Statement :=
  items.foldl (fun statement item => statement.filter (Expr.equation item)) statement

theorem filterAll_eq {statement : Statement} {before : List Expr}
    (given : statement.filter? = Expr.joined? before) (items : List (String × Value)) :
    statement.filterAll items =
      { statement with filter? := Expr.joined? (before ++ items.map Expr.equation) } := by
  rw [filterAll, ← List.foldl_map]
  exact foldl_filter given (items.map Expr.equation)

end Statement

/-- The conditions of a lookup by key are those of the query by the key. -/
theorem Action.keyStatement_eq_ok {model : Model} {names : List String}
    (mapped : ∀ name ∈ names, (model.entity.field? name).isSome) (values : List Value)
    (statement : Statement) :
    keyStatement model statement names values = .ok (statement.filterAll
      ((names.zip values).map fun item => (model.entity.keyColumn item.1, item.2))) := by
  induction names generalizing values statement with
  | nil => rfl
  | cons name names ih =>
      cases values with
      | nil => rfl
      | cons value values =>
          obtain ⟨first, others⟩ := List.forall_mem_cons.mp mapped
          obtain ⟨field, found⟩ := Option.isSome_iff_exists.mp first
          have column : model.column name = .ok (model.entity.keyColumn name) := by
            rw [Model.column, Entity.keyColumn, found]
            rfl
          rw [keyStatement, column]
          exact ih others values _

namespace Entity.Valid

variable {entity : Entity}

/-- The columns of a key with one value for each attribute are those of the attributes. -/
theorem forall₂_keyColumns (valid : entity.Valid) {values : List Value}
    (length : values.length = entity.primaryKey.length) :
    List.Forall₂ (fun name column =>
        ∃ field, entity.field? name = some field ∧ field.column = column)
      entity.primaryKey (entity.keyColumns values) := by
  have columns : entity.keyColumns values = entity.primaryKey.map entity.keyColumn := by
    rw [keyColumns, keyItems, List.map_map]
    have names : (entity.primaryKey.zip values).map Prod.fst = entity.primaryKey :=
      List.map_fst_zip (Nat.le_of_eq length.symm)
    conv => rhs; rw [← names, List.map_map]
    rfl
  rw [columns, List.forall₂_map_right_iff, List.forall₂_same]
  intro name member
  obtain ⟨field, found⟩ := Option.isSome_iff_exists.mp (valid.keyed name member)
  exact ⟨field, found, by rw [keyColumn, found]; rfl⟩

end Entity.Valid

/-! ## Lookups -/

namespace Model

variable {model : Model} {schema : Schema} {dialect : Sql.Dialect} {remembered after : Configured}
  {values : List Value} {options : List LoaderOption} {compiled : CompiledStatement}

/-- The statement of a lookup has the condition of the query by primary key. -/
theorem keyStatement_eq (valid : model.entity.Valid) (values : List Value)
    (options : List LoaderOption) :
    let start := (Statement.ofEntity model.entity).withOptions options
    Action.keyStatement model start model.entity.primaryKey values =
      .ok { start with filter? := model.entity.keyCondition? values } := by
  intro start
  have unfiltered : start.filter? = Expr.joined? [] := rfl
  rw [Action.keyStatement_eq_ok valid.keyed, Statement.filterAll_eq unfiltered,
    Entity.keyCondition?_eq, Entity.keyItems, List.nil_append]

/-- **A lookup by key asks for the query by primary key**, for the columns that its options load
with the row. -/
theorem LooksUp.exists_query (valid : model.entity.Valid)
    (looksUp : model.LooksUp schema dialect remembered values options compiled after) :
    ∃ plan, compiled.planFor? model.entity = some plan ∧ plan.Suits model.entity ∧
      compiled.build = (model.entity.queryByKey plan.eagerColumns values).build dialect := by
  obtain ⟨statement, keyed, ran⟩ := looksUp.compiles
  obtain rfl := Except.ok.inj (keyed.symm.trans (keyStatement_eq valid values options))
  have compiles := Statement.compiles_of_run ran
  obtain ⟨plan, found, suits, query⟩ := compiles.exists_plan rfl
  refine ⟨plan, found, suits, ?_⟩
  rw [CompiledStatement.build, query, compiles.dialect]
  rfl

/-- A lookup compiles when its options do. -/
theorem looksUp_of_run (valid : model.entity.Valid)
    (length : values.length = model.entity.primaryKey.length)
    (ran : (((Statement.ofEntity model.entity).withOptions options).compile schema dialect).run.run
      remembered = (.ok compiled, after)) :
    model.LooksUp schema dialect remembered values options
      { compiled with
        query := { compiled.query with condition? := model.entity.keyCondition? values } } after :=
  ⟨length, _, keyStatement_eq valid values options, Statement.compile_filtered ran _⟩

end Model

namespace Program

variable [Hashable Digest] {program : Program} {number held : Nat} {session : Session}
  {inst : Instance} {entry : Entry}

/-- A refresh sends the query by primary key for the columns that its plan loads with the row. -/
theorem refresh_calls (here : program.sessions[number]? = some session)
    (holds : program.instances[held]? = some inst)
    (attached : session.attached? inst = some entry) {connection : Connection}
    (begins : session.beginsFirst → connection.executeReplies.headD (.ok ()) = .ok ()) :
    let sent := (inst.plan.entity.queryByKey inst.plan.eagerColumns
      (inst.model.keyOf entry.record)).build session.config.dialect
    (program.step number connection (.refresh held)).calls =
      connection.calls ++ session.callsToBegin ++ [.query sent.1 sent.2] := by
  intro sent
  have started : (program.contextOf session connection).session.attached? inst = some entry :=
    attached
  obtain ⟨after, calls, run⟩ := Action.refresh_run started begins
  have performed : (program.step number connection (.refresh held)).calls =
      (Action.refresh inst (program.contextOf session connection)).2.2.connection.calls := by
    rw [step_of_session here]
    exact congrArg Step.calls (performOn_of_instance holds rfl _)
  rw [performed, run]
  refine Eq.trans ?_ calls
  split <;> rfl

/-- **Both ways to ask for an identity send the same.** Let the options of a lookup compile to a
plan. Where no live entry has the key, the lookup sends the query by primary key for the eager
columns of the plan, and so does a refresh of an instance with this plan and this key. The query
has one equation for each attribute of the primary key, in the order of the key, of its column with
its value. -/
theorem identity_asked_alike (here : program.sessions[number]? = some session) {model : Model}
    (valid : model.entity.validate = .ok ()) {values : List Value}
    (length : values.length = model.entity.primaryKey.length) {options : List LoaderOption}
    {compiled : CompiledStatement} {after : Configured}
    (ran : (((Statement.ofEntity model.entity).withOptions options).compile program.schema
      session.config.dialect).run.run program.configured = (.ok compiled, after))
    (connection : Connection)
    (begins : session.beginsFirst → connection.executeReplies.headD (.ok ()) = .ok ()) :
    ∃ plan columns, compiled.planFor? model.entity = some plan ∧
      List.Forall₂ (fun name column =>
          ∃ field, model.entity.field? name = some field ∧ field.column = column)
        model.entity.primaryKey columns ∧
      let dialect := session.config.dialect
      let asked := (model.entity.queryByKey plan.eagerColumns values).build dialect
      let sent := connection.calls ++ session.callsToBegin ++ [.query asked.1 asked.2]
      asked = (dialect.selection plan.eagerColumns model.table ++ " WHERE " ++
        dialect.equations dialect.reference 1 columns, values) ∧
      (session.live? (Key.ofValues model values) = none →
        (program.step number connection (.getByKey model values options)).calls = sent) ∧
      ∀ held inst entry, program.instances[held]? = some inst → inst.plan = plan →
        session.attached? inst = some entry → inst.model.keyOf entry.record = values →
          (program.step number connection (.refresh held)).calls = sent := by
  have mapping := Entity.valid_of_validate valid
  have looksUp := Model.looksUp_of_run mapping length ran
  obtain ⟨plan, found, suits, build⟩ := looksUp.exists_query mapping
  have columns := mapping.forall₂_keyColumns length
  refine ⟨plan, model.entity.keyColumns values, found, columns, ?_⟩
  intro dialect asked sent
  refine ⟨Prod.ext ?_ ?_, fun missing => ?_, ?_⟩
  · have some : model.entity.keyColumns values ≠ [] := by
      intro none
      rw [none] at columns
      exact Entity.primaryKey_ne_nil valid (List.forall₂_nil_right_iff.mp columns)
    rw [model.entity.queryByKey_text, Entity.keyQueryText, if_neg (by simpa using some),
      String.append_assoc]
    rfl
  · rw [model.entity.params_queryByKey, List.map_snd_zip (Nat.le_of_eq length)]
  · rw [lookup_calls here looksUp found missing begins, build]
  · rintro held inst entry holds rfl attached rfl
    rw [refresh_calls here holds attached begins, suits.owner]

end Program

/-- A review is looked up by the two attributes of its key, with its text, and is refreshed. -/
theorem Catalogue.review_asked_for_twice :
    let start := Program.ofConfigs schema [.default]
    let row : Row := ⟨["seq_no", "body_text", "book_id", "rating"],
      [.int 2, .text "A matchmaker errs.", .int 1, .int 5]⟩
    let looked := start.step 0 ⟨[.ok [row]], [], []⟩
      (.getByKey review [.int 1, .int 2] [LoaderOption.undefer "body"])
    let asked : Call := .query ("SELECT \"seq_no\", \"body_text\", \"book_id\", \"rating\" " ++
      "FROM reviews WHERE \"book_id\" = $1 AND \"seq_no\" = $2") [.int 1, .int 2]
    looked.calls = [.execute "BEGIN", asked] ∧
      (looked.program.step 0 ⟨[], [], []⟩ (.refresh 0)).calls = [asked] := by
  intro start row looked asked
  let statement := (Statement.ofEntity reviewEntity).withOptions [LoaderOption.undefer "body"]
  let columns := ["seq_no", "body_text", "book_id", "rating"]
  have text : Call.query ((reviewEntity.queryByKey columns [.int 1, .int 2]).build .postgres).1
      ((reviewEntity.queryByKey columns [.int 1, .int 2]).build .postgres).2 = asked :=
    congrArg (Call.query · _) (by decide +kernel)
  have valid : review.entity.validate = .ok () := rfl
  have length : [Value.int 1, .int 2].length = review.entity.primaryKey.length := rfl
  constructor
  · have here : start.sessions[0]? = some (.ofConfig .default) := rfl
    have ran : (statement.compile start.schema .postgres).run.run start.configured =
      (.ok _, _) := rfl
    obtain ⟨plan, -, found, -, -, looksUp, -⟩ :=
      Program.identity_asked_alike here valid length ran ⟨[.ok [row]], [], []⟩ fun _ => rfl
    have eager : columns = plan.eagerColumns :=
      Option.some.inj (congrArg (Option.map LoadPlan.eagerColumns) found)
    rw [← eager] at looksUp
    exact (looksUp rfl).trans (congrArg (fun call => [Call.execute "BEGIN", call]) text)
  · have here : looked.program.sessions[0]? = some _ := rfl
    have ran : (statement.compile looked.program.schema .postgres).run.run
      looked.program.configured = (.ok _, _) := rfl
    obtain ⟨plan, -, found, -, -, -, refreshes⟩ :=
      Program.identity_asked_alike here valid length ran ⟨[], [], []⟩ nofun
    have eager : columns = plan.eagerColumns :=
      Option.some.inj (congrArg (Option.map LoadPlan.eagerColumns) found)
    have refreshed := refreshes 0 _ _ rfl (Option.some.inj found) rfl rfl
    rw [← eager] at refreshed
    exact refreshed.trans (congrArg ([·]) text)

end LazyMapper
