import LazyMapper.Proofs.Session.Merging
import LazyMapper.Proofs.Session.Sending
import LazyMapper.Proofs.Sql.Parameters
import LazyMapper.Proofs.Statement.Checking
import LazyMapper.Proofs.Statement.Refusals
import LazyMapper.Proofs.Value.Equality
import Mathlib.Data.List.Induction

/-!
# Loads of related instances

A load of the instances related to given parents asks for every key of the parents once, in one
query. The keys are what the entries of the parents hold, whatever the parents themselves carry;
nulls are left out, and so is a key equal to an earlier one (`Value.firstOccurrences`). Equality of
values is transitive, so a key left out is equal to none of the keys that come behind, unless these
are left out as well (`Action.distinctKeys_eq`).

Everything is checked before the query is sent: the statement, the path, what the relationship
joins by (`Action.Joins`), and for every parent that its entry has the key (`Action.HoldKeys`). When
a check fails, nothing has been sent and no entry has changed (`Action.loadRelated_asks_once`).
-/

set_option autoImplicit false

namespace LazyMapper

/-! ## Keys -/

namespace Value

/-- The values that are not null and equal to none before, in their order. -/
def firstOccurrences (values : List Value) : List Value :=
  (values.zipIdx.filter fun item =>
    !item.1.isNull && !(values.take item.2).contains item.1).map Prod.fst

theorem firstOccurrences_concat (values : List Value) (value : Value) :
    firstOccurrences (values ++ [value]) =
      if value.isNull || values.contains value then firstOccurrences values
      else firstOccurrences values ++ [value] := by
  have front : values.zipIdx.filter (fun item =>
      !item.1.isNull && !((values ++ [value]).take item.2).contains item.1) =
        values.zipIdx.filter fun item =>
          !item.1.isNull && !(values.take item.2).contains item.1 := by
    refine List.filter_congr fun item member => ?_
    have inside : item.2 < values.length := List.snd_lt_of_mem_zipIdx member
    rw [List.take_append_of_le_length (Nat.le_of_lt inside)]
  unfold firstOccurrences
  rw [List.zipIdx_append, List.filter_append, List.map_append, front, List.zipIdx_singleton,
    List.filter_cons, Nat.zero_add, List.take_left, ← Bool.not_or]
  cases value.isNull || values.contains value with
  | true => exact List.append_nil _
  | false => rfl

end Value

namespace Action

open Value (firstOccurrences)

theorem distinctKeys_concat (values : List Value) (value : Value) :
    distinctKeys (values ++ [value]) =
      if value.isNull || (distinctKeys values).contains value then distinctKeys values
      else distinctKeys values ++ [value] := by
  rw [distinctKeys, List.foldl_append]
  rfl

/-- A value that is not null is equal to one of the keys kept when it is equal to any. -/
theorem contains_distinctKeys (values : List Value) {value : Value}
    (given : value.isNull = false) :
    (distinctKeys values).contains value = values.contains value := by
  -- The keys grow at their end, so the induction takes the last value off. A value equal to a key
  -- that is left out is equal to the one that is kept, as equality is transitive.
  induction values using List.reverseRecOn generalizing value with
  | nil => rfl
  | append_singleton values last ih =>
      rw [distinctKeys_concat, List.contains_append, ← ih given]
      split
      · rename_i dropped
        rw [Bool.eq_iff_iff, Bool.or_eq_true]
        refine ⟨.inl, fun equal => equal.elim id fun listed => ?_⟩
        obtain ⟨_, member, same⟩ := List.contains_iff_exists_mem_beq.mp listed
        obtain rfl := List.mem_singleton.mp member
        rcases Bool.or_eq_true_iff.mp dropped with null | kept
        · rw [Value.isNull_of_beq same null] at given
          cases given
        · obtain ⟨key, kept, same'⟩ := List.contains_iff_exists_mem_beq.mp kept
          exact List.contains_iff_exists_mem_beq.mpr ⟨key, kept, Value.beq_trans same same'⟩
      · exact List.contains_append

/-- **The keys asked for are the first occurrences of the values.** -/
theorem distinctKeys_eq (values : List Value) :
    distinctKeys values = firstOccurrences values := by
  induction values using List.reverseRecOn with
  | nil => rfl
  | append_singleton values value ih =>
      rw [distinctKeys_concat, Value.firstOccurrences_concat, ← ih]
      cases given : value.isNull with
      | true => rfl
      | false => rw [contains_distinctKeys values given]

/-- There are keys when some value is not null. -/
theorem isEmpty_distinctKeys (values : List Value) :
    (distinctKeys values).isEmpty = values.all (·.isNull) := by
  induction values using List.reverseRecOn with
  | nil => rfl
  | append_singleton values value ih =>
      rw [distinctKeys_concat, List.all_append, ← ih, List.all_cons, List.all_nil, Bool.and_true]
      cases given : value.isNull with
      | true => exact (Bool.and_true _).symm
      | false =>
          rw [Bool.false_or, Bool.and_false]
          split
          · rename_i listed
            cases kept : distinctKeys values with
            | nil =>
                rw [kept] at listed
                cases listed
            | cons => rfl
          · simp

end Action

/-- The column that related rows are compared by is selected once: among those loaded with the row,
or behind them. -/
theorem LoadPlan.Suits.columnsWith_eq {plan : LoadPlan} {model : Model}
    (suits : plan.Suits model.entity) {name column : String}
    (mapped : model.column name = .ok column) :
    plan.columnsWith column =
      if column ∈ plan.eagerColumns then plan.eagerColumns else plan.eagerColumns ++ [column] := by
  have planned : plan.attributes.any (·.column == column) := by
    unfold Model.column at mapped
    cases found : model.entity.field? name with
    | none =>
        rw [found] at mapped
        cases mapped
    | some field =>
        rw [found] at mapped
        obtain rfl := Except.ok.inj mapped
        have listed : field.column ∈ plan.attributes.map PlannedAttribute.column := by
          rw [suits.columns]
          exact List.mem_map_of_mem (List.mem_of_find?_eq_some found)
        obtain ⟨planned, member, same⟩ := List.mem_map.mp listed
        exact List.any_eq_true.mpr ⟨planned, member, beq_iff_eq.mpr same⟩
  unfold columnsWith
  dsimp only
  rw [if_pos planned]
  exact if_congr List.contains_iff_mem rfl rfl

/-! ## What is checked before -/

/-- What a load of related instances joins by: the plan at the end of its path, an attribute of the
parents with its position, and the column of the related rows with the same value. -/
structure Join where
  target : PathPlan
  name : String
  index : Nat
  column : String

namespace Action

/-- The statement compiles, its path has a plan, and the relationship at the end of the path has
keys that are mapped on both sides. -/
structure Joins (schema : Schema) (parent related : Model) (statement : Statement) (path : String)
    (context : Context) (join : Join) (configured : Configured) : Prop where
  resolves : ∃ compiled remembered,
    (statement.compile schema context.session.config.dialect).run.run context.configured =
        (.ok compiled, remembered) ∧
      (compiled.planAt schema path parent.entity related.entity).run.run remembered =
        (.ok join.target, configured)
  keys : ∃ relatedName,
    joinKeys? parent related join.target.relationship = some (join.name, relatedName) ∧
      related.column relatedName = .ok join.column
  position : parent.entity.index? join.name = some join.index

/-- All parents are attached, to the given entries, and these have the attribute loaded. -/
def HoldKeys (session : Session) (index : Nat) (parents : List Instance) (entries : List Entry) :
    Prop :=
  List.Forall₂ (fun inst entry => session.attached? inst = some entry ∧ index ∈ entry.loaded)
    parents entries

/-- Why a parent has no key: it is not attached, or its entry does not have the attribute
loaded. -/
inductive LacksKey (session : Session) (parent : Model) (path : String) (join : Join)
    (inst : Instance) : Error → Prop where
  | detached (apart : session.attached? inst = none) :
      LacksKey session parent path join inst (.detached parent.table)
  | unloaded {entry : Entry} (attached : session.attached? inst = some entry)
      (missing : join.index ∉ entry.loaded) :
      LacksKey session parent path join inst
        (.usage (.parentKeyUnloaded parent.table join.name path))

variable {schema : Schema} {parent related : Model} {statement : Statement} {path : String}
  {parents : List Instance} {context : Context} {join : Join} {configured : Configured}
  {session : Session} {entries : List Entry}

theorem Joins.suits (joins : Joins schema parent related statement path context join configured) :
    join.target.plan.Suits related.entity := by
  obtain ⟨compiled, remembered, -, planned⟩ := joins.resolves
  have checks : Configuring.Checks (fun _ => True)
      (compiled.planAt schema path parent.entity related.entity) remembered fun found names =>
        found.plan.Suits related.entity ∧ related.entity.typeName ∈ names :=
    compiled.planAt_checks path parent.entity trivial
  exact (checks.of_run planned).2.1

theorem parentKey_of_loaded {inst : Instance} {entry : Entry}
    (attached : session.attached? inst = some entry) (loaded : join.index ∈ entry.loaded) :
    parentKey session parent join.name join.index path inst =
      .ok (parent.attributeOrNull entry.record join.name) := by
  have present : entry.loaded.contains join.index := loaded
  unfold parentKey
  rw [attached]
  dsimp only
  rw [if_pos present]
  rfl

/-- A parent has its key or lacks it. -/
theorem parentKey_cases (session : Session) (parent : Model) (path : String) (join : Join)
    (inst : Instance) :
    (∃ entry, session.attached? inst = some entry ∧ join.index ∈ entry.loaded) ∨
      ∃ error, parentKey session parent join.name join.index path inst = .error error ∧
        LacksKey session parent path join inst error := by
  cases attached : session.attached? inst with
  | none => exact .inr ⟨_, by rw [parentKey, attached]; rfl, .detached attached⟩
  | some entry =>
      by_cases loaded : join.index ∈ entry.loaded
      · exact .inl ⟨entry, rfl, loaded⟩
      · have absent : ¬ entry.loaded.contains join.index := loaded
        refine .inr ⟨_, ?_, .unloaded attached loaded⟩
        rw [parentKey, attached]
        dsimp only
        rw [if_neg absent]
        rfl

/-- The keys of the parents are read from their entries. -/
theorem HoldKeys.parentKeys (holds : HoldKeys session join.index parents entries) :
    parents.mapM (parentKey session parent join.name join.index path) =
      .ok (entries.map (parent.attributeOrNull ·.record join.name)) := by
  unfold HoldKeys at holds
  induction holds with
  | nil => rfl
  | cons here _ ih =>
      rw [List.mapM_cons, parentKey_of_loaded here.1 here.2, ih]
      rfl

/-- Where not all parents have their keys, one that lacks it is reported. -/
theorem parentKeys_refused (parent : Model) (path : String) (join : Join)
    (lacking : ¬ ∃ entries, HoldKeys session join.index parents entries) :
    ∃ error, parents.mapM (parentKey session parent join.name join.index path) = .error error ∧
      ∃ inst ∈ parents, LacksKey session parent path join inst error := by
  induction parents with
  | nil => exact absurd ⟨[], .nil⟩ lacking
  | cons inst rest ih =>
      rw [List.mapM_cons]
      rcases parentKey_cases session parent path join inst with
        ⟨entry, attached, loaded⟩ | ⟨error, failed, lacks⟩
      · obtain ⟨error, failed, other, member, lacks⟩ :=
          ih fun ⟨entries, holds⟩ => lacking ⟨entry :: entries, .cons ⟨attached, loaded⟩ holds⟩
        rw [parentKey_of_loaded attached loaded, failed]
        exact ⟨error, rfl, other, List.mem_cons_of_mem inst member, lacks⟩
      · rw [failed]
        exact ⟨error, rfl, inst, List.mem_cons_self, lacks⟩

/-! ## Runs -/

theorem planAt_run {compiled : CompiledStatement} {result : Except Error PathPlan}
    {remembered : Configured}
    (planned : (compiled.planAt schema path parent.entity related.entity).run.run remembered =
      (result, configured)) :
    (ofConfiguring (compiled.planAt schema path parent.entity related.entity)).run.run
        { context with configured := remembered } =
      (ofExcept result).run.run { context with configured } :=
  ofConfiguring_run planned

variable [Hashable Digest]

/-- What a load of related instances does once it knows what it joins by. -/
theorem loadRelated_run
    (joins : Joins schema parent related statement path context join configured) :
    (loadRelated schema parent related statement parents path).run.run context =
      (do
        let values ←
          ofExcept (parents.mapM (parentKey context.session parent join.name join.index path))
        let keys := distinctKeys values
        if keys.isEmpty then return []
        let rows ← query ((join.target.plan.queryRelated join.column keys).build
          context.session.config.dialect)
        rows.mapM (mergeRow related join.target.plan) : Action (List Instance)).run.run
        { context with configured } := by
  obtain ⟨compiled, remembered, ran, planned⟩ := joins.resolves
  obtain ⟨relatedName, keyed, mapped⟩ := joins.keys
  unfold loadRelated
  refine (run_bind_of_ok (compile_run ran)).trans ?_
  refine (run_bind_of_ok (planAt_run planned)).trans ?_
  rw [keyed]
  dsimp only
  rw [mapped, joins.position]
  exact (run_bind_of_ok rfl).trans (run_session_bind _ _)

omit [Hashable Digest] in
theorem isResolution_of_column {name : String} {error : Error}
    (unmapped : related.column name = .error error) : error.IsResolution := by
  unfold Model.column at unmapped
  cases found : related.entity.field? name with
  | none =>
      rw [found] at unmapped
      cases unmapped
      trivial
  | some field =>
      rw [found] at unmapped
      cases unmapped

/-- The keys that a relationship joins by are not mapped on both sides. -/
theorem loadRelated_unmapped {compiled : CompiledStatement} {target : PathPlan}
    {remembered : Configured}
    (ran : (statement.compile schema context.session.config.dialect).run.run context.configured =
      (.ok compiled, remembered))
    (planned : (compiled.planAt schema path parent.entity related.entity).run.run remembered =
      (.ok target, configured))
    (apart : ¬ ∃ join, Joins schema parent related statement path context join configured) :
    ∃ error, error.IsResolution ∧
      (loadRelated schema parent related statement parents path).run.run context =
        (.error (.failed error), { context with configured }) := by
  have run : (loadRelated schema parent related statement parents path).run.run context = _ :=
    (run_bind_of_ok (compile_run ran)).trans (run_bind_of_ok (planAt_run planned))
  cases keyed : joinKeys? parent related target.relationship with
  | none =>
      rw [keyed] at run
      exact ⟨.mapping (.noJoinKeys parent.table target.relationship.name), trivial, run⟩
  | some names =>
      rw [keyed] at run
      dsimp only at run
      cases mapped : related.column names.2 with
      | error error =>
          rw [mapped] at run
          exact ⟨error, isResolution_of_column mapped, run⟩
      | ok column =>
          cases position : parent.entity.index? names.1 with
          | none =>
              rw [mapped, position] at run
              exact ⟨.mapping (.noKeyAttribute parent.table names.1), trivial, run⟩
          | some index =>
              exact absurd ⟨⟨target, names.1, index, column⟩,
                ⟨compiled, remembered, ran, planned⟩, ⟨names.2, keyed, mapped⟩, position⟩ apart

/-- A load that finds nothing to join by cannot resolve something, and changes nothing but the
mappings found valid. -/
theorem loadRelated_unresolved (parents : List Instance)
    (apart : ¬ ∃ join configured, Joins schema parent related statement path context join
      configured) :
    ∃ error configured, error.IsResolution ∧
      (loadRelated schema parent related statement parents path).run.run context =
        (.error (.failed error), { context with configured }) := by
  obtain ⟨result, remembered, ran⟩ : ∃ result remembered,
      (statement.compile schema context.session.config.dialect).run.run context.configured =
        (result, remembered) := ⟨_, _, rfl⟩
  cases result with
  | error error =>
      refine ⟨error, remembered, (statement.compile_refuses _ _).isResolution ran, ?_⟩
      exact run_bind_of_error (compile_run ran)
  | ok compiled =>
      obtain ⟨result, configured, planned⟩ : ∃ result configured,
          (compiled.planAt schema path parent.entity related.entity).run.run remembered =
            (result, configured) := ⟨_, _, rfl⟩
      cases result with
      | error error =>
          refine ⟨error, configured, (compiled.planAt_refuses _ _ _ _).isResolution planned, ?_⟩
          refine (run_bind_of_ok (compile_run ran)).trans ?_
          exact run_bind_of_error (planAt_run planned)
      | ok target =>
          obtain ⟨error, resolution, run⟩ := loadRelated_unmapped ran planned
            fun ⟨join, joins⟩ => apart ⟨join, configured, joins⟩
          exact ⟨error, configured, resolution, run⟩

/-- The query for the related rows with one of the given keys. -/
def relatedQuery (related : Model) (join : Join) (keys : List Value) : Sql.Query :=
  let columns := join.target.plan.eagerColumns
  let selected := if join.column ∈ columns then columns else columns ++ [join.column]
  .select (selected.map .plain) [related.table] (some (.member (.ofColumnName join.column) keys))

omit [Hashable Digest] in
theorem Joins.queryRelated_eq
    (joins : Joins schema parent related statement path context join configured)
    (keys : List Value) :
    join.target.plan.queryRelated join.column keys = relatedQuery related join keys := by
  obtain ⟨relatedName, -, mapped⟩ := joins.keys
  unfold LoadPlan.queryRelated relatedQuery
  rw [joins.suits.columnsWith_eq mapped, joins.suits.owner]
  rfl

/-! ## Rows -/

/-- Rows merged one after the other, each into the entry of its key, to which its instance is a
handle. -/
inductive MergesAll (model : Model) (plan : LoadPlan) :
    List Row → Context → List Instance → Context → Prop where
  | nil {context : Context} : MergesAll model plan [] context [] context
  | cons {row : Row} {rows : List Row} {before middle after : Context} {key : Key} {entry : Entry}
      {instances : List Instance} (keyed : model.rowKey? row = some key)
      (merged : MergesRow model row before middle key entry)
      (rest : MergesAll model plan rows middle instances after) :
      MergesAll model plan (row :: rows) before (.ofEntry model key plan entry :: instances) after

/-- One of the rows cannot be merged. Those in front of it have been. -/
def RefusesOne (model : Model) (plan : LoadPlan) (rows : List Row) (context : Context)
    (interruption : Interruption) : Prop :=
  ∃ front row back instances middle, rows = front ++ row :: back ∧
    MergesAll model plan front context instances middle ∧
    RefusesRow model row middle.session interruption

/-- **Rows are merged one after the other until one is refused.** -/
theorem mergeAll_ends (model : Model) (plan : LoadPlan) (rows : List Row) (context : Context) :
    Ends (rows.mapM (mergeRow model plan)) context
      (fun instances after => MergesAll model plan rows context instances after)
      fun interruption _ => RefusesOne model plan rows context interruption := by
  induction rows generalizing context with
  | nil =>
      rw [List.mapM_nil]
      exact .nil
  | cons row rest ih =>
      rw [List.mapM_cons, ends_bind]
      refine (mergeRow_ends model plan row context).mono ?_ ?_
      · rintro _ middle ⟨key, entry, keyed, rfl, merged⟩
        rw [ends_bind]
        refine (ih middle).mono (fun instances after later => .cons keyed merged later) ?_
        rintro interruption _ ⟨front, other, back, instances, last, rfl, merges, refuses⟩
        exact ⟨row :: front, other, back, _, last, rfl, .cons keyed merged merges, refuses⟩
      · rintro interruption _ ⟨-, refuses⟩
        exact ⟨[], row, rest, [], context, rfl, .nil, refuses⟩

/-- A run that merges rows gives an instance for each of them, unless one is refused. -/
theorem mergeAll_run (model : Model) (plan : LoadPlan) (rows : List Row) (context : Context) :
    let ran := (rows.mapM (mergeRow model plan)).run.run context
    (∃ instances, ran.1 = .ok instances ∧ MergesAll model plan rows context instances ran.2) ∨
      ∃ interruption, ran.1 = .error interruption ∧
        RefusesOne model plan rows context interruption := by
  intro ran
  have ends := mergeAll_ends model plan rows context
  unfold Ends at ends
  split at ends
  · rename_i instances after run
    rw [show ran = _ from run]
    exact .inl ⟨instances, rfl, ends⟩
  · rename_i interruption after run
    rw [show ran = _ from run]
    exact .inr ⟨interruption, rfl, ends⟩

/-- What comes of a query whose rows are merged: the fault that it is answered with, or an instance
for each row, unless one of them is refused. -/
def MergesAnswer (model : Model) (plan : LoadPlan) (context : Context)
    (ran : Outcome (List Instance) × Context) : Prop :=
  ∃ connection,
    let begun : Context := { context with session := context.session.begun, connection }
    match context.connection.queryReplies.headD (.ok []) with
    | .error interruption => ran = (.error interruption, begun)
    | .ok rows =>
      (∃ instances, ran.1 = .ok instances ∧ MergesAll model plan rows begun instances ran.2) ∨
      ∃ interruption, ran.1 = .error interruption ∧
        RefusesOne model plan rows begun interruption

/-- **A query whose rows are merged is sent once**, behind a `BEGIN` if one is due. -/
theorem queryAll_run (model : Model) (plan : LoadPlan) (statement : String × List Value)
    (context : Context)
    (begins : context.session.beginsFirst →
      context.connection.executeReplies.headD (.ok ()) = .ok ()) :
    let ran := (query statement >>= fun rows => rows.mapM (mergeRow model plan)).run.run context
    ran.2.connection.calls = context.connection.calls ++ context.session.callsToBegin ++
        [.query statement.1 statement.2] ∧
      MergesAnswer model plan context ran := by
  intro ran
  refine ⟨Sends.calls_of_query ((query_sends statement context).bind_silent ?_) begins, ?_⟩
  · exact .mapM (silent_mergeRow model plan)
  · obtain ⟨connection, queried, -⟩ := query_run context statement begins
    have run : ran = _ := run_bind _ _ context
    rw [queried] at run
    refine ⟨connection, ?_⟩
    generalize context.connection.queryReplies.headD (.ok []) = reply at run
    cases reply with
    | error interruption => exact run
    | ok rows =>
        rw [run]
        exact mergeAll_run model plan rows _

/-! ## One query for all parents -/

/-- A load of which a check fails changes nothing but the mappings found valid. -/
theorem loadRelated_refused (parents : List Instance)
    (refused : ¬ ∃ join configured entries,
      Joins schema parent related statement path context join configured ∧
        HoldKeys context.session join.index parents entries) :
    ∃ error configured,
      (loadRelated schema parent related statement parents path).run.run context =
          (.error (.failed error), { context with configured }) ∧
        (error.IsResolution ∨
          ∃ join, Joins schema parent related statement path context join configured ∧
            ∃ inst ∈ parents, LacksKey context.session parent path join inst error) := by
  by_cases apart : ∃ join configured,
      Joins schema parent related statement path context join configured
  · obtain ⟨join, configured, joins⟩ := apart
    obtain ⟨error, failed, lacks⟩ := parentKeys_refused parent path join
      fun ⟨entries, holds⟩ => refused ⟨join, configured, entries, joins, holds⟩
    refine ⟨error, configured, (loadRelated_run joins).trans ?_, .inr ⟨join, joins, lacks⟩⟩
    rw [failed]
    exact run_bind_of_error rfl
  · obtain ⟨error, configured, resolution, run⟩ := loadRelated_unresolved parents apart
    exact ⟨error, configured, run, .inl resolution⟩

/-- What a load does once the keys of all parents are read. -/
theorem loadRelated_run_holding
    (joins : Joins schema parent related statement path context join configured)
    (holds : HoldKeys context.session join.index parents entries) :
    let values := entries.map (parent.attributeOrNull ·.record join.name)
    (loadRelated schema parent related statement parents path).run.run context =
      (if values.all (·.isNull) then pure [] else do
        let rows ← query ((relatedQuery related join (Value.firstOccurrences values)).build
          context.session.config.dialect)
        rows.mapM (mergeRow related join.target.plan) : Action (List Instance)).run.run
        { context with configured } := by
  intro values
  rw [loadRelated_run joins, holds.parentKeys, ← isEmpty_distinctKeys, ← distinctKeys_eq,
    ← joins.queryRelated_eq]
  rfl

/-- **A load of related instances asks for every key of its parents once, or fails before anything
is sent.** When the statement, the path or the keys of the relationship cannot be resolved, or a
parent is not attached or does not have its key loaded, nothing is sent and no entry changes.
Otherwise the keys are the values in the entries of the parents, without nulls and repetitions. When
there is none, nothing is sent. Else one query is sent, whose parameters are the keys, and the rows
it is answered with are merged in their order until one is refused, with the plan at the path. -/
theorem loadRelated_asks_once (schema : Schema) (parent related : Model) (statement : Statement)
    (parents : List Instance) (path : String) (context : Context) :
    let ran := (loadRelated schema parent related statement parents path).run.run context
    let joins := Joins schema parent related statement path context
    ((¬ ∃ join configured entries, joins join configured ∧
        HoldKeys context.session join.index parents entries) →
      ∃ error configured, ran = (.error (.failed error), { context with configured }) ∧
        (error.IsResolution ∨ ∃ join, joins join configured ∧
          ∃ inst ∈ parents, LacksKey context.session parent path join inst error)) ∧
    ∀ join configured entries, joins join configured →
      HoldKeys context.session join.index parents entries →
      let values := entries.map (parent.attributeOrNull ·.record join.name)
      ((∀ value ∈ values, value.isNull) → ran = (.ok [], { context with configured })) ∧
      ((∃ value ∈ values, ¬ value.isNull) →
        (context.session.beginsFirst →
          context.connection.executeReplies.headD (.ok ()) = .ok ()) →
        let keys := Value.firstOccurrences values
        let sent := (relatedQuery related join keys).build context.session.config.dialect
        sent.2 = keys ∧
          ran.2.connection.calls = context.connection.calls ++ context.session.callsToBegin ++
            [.query sent.1 keys] ∧
          MergesAnswer related join.target.plan { context with configured } ran) := by
  intro ran joins
  refine ⟨loadRelated_refused parents, fun join configured entries joined holds => ?_⟩
  intro values
  have run : ran = _ := loadRelated_run_holding joined holds
  refine ⟨fun nulls => ?_, fun ⟨value, member, given⟩ begins => ?_⟩
  · rw [if_pos (List.all_eq_true.mpr nulls)] at run
    exact run
  · rw [if_neg fun nulls => given (List.all_eq_true.mp nulls value member)] at run
    intro keys sent
    have params : sent.2 = keys := by
      rw [show sent = (relatedQuery related join keys).build _ from rfl, ← joined.queryRelated_eq]
      exact LoadPlan.params_queryRelated _ _ _ _
    refine ⟨params, ?_⟩
    rw [run, ← params]
    exact queryAll_run related join.target.plan sent { context with configured } begins

end Action

/-! ## Authors of books -/

namespace Catalogue

/-- The entry of a book that has an author, or none. -/
def written (number : Nat) (author : Value) : Key × Entry :=
  (.ofValues book [.int (.ofNat number)],
    .fresh book [.int (.ofNat number), .null, .null, .null, .null, .null, author]
      (.ofList 7 [0, 6]) number)

/-- A session with the books of two authors and a book without an author. -/
def anthology : Session :=
  { Session.ofConfig .default with
    identities :=
      ⟨[written 1 (.int 7), written 2 .null, written 3 (.int 8), written 4 (.int 7)]⟩ }

/-- The authors of all books are asked for with one query, although the copies that the books carry
are empty. A session that has none of the books does not ask. -/
theorem anthology_asks_once :
    let books := anthology.identities.entries.map fun (key, entry) =>
      { Instance.ofEntry book key (.defaults bookEntity) entry with record := [] }
    let load := Action.loadRelated schema book author (.ofEntity bookEntity) books "author"
    (load.run.run ⟨anthology, .silent, 5, []⟩).2.connection.calls =
        [.execute "BEGIN", .query
          "SELECT \"id\", \"name\" FROM authors WHERE \"id\" IN ($1, $2)" [.int 7, .int 8]] ∧
      (load.run.run ⟨.ofConfig .default, .silent, 5, []⟩).2.connection.calls = [] := by
  intro books load
  obtain ⟨-, asks⟩ := Action.loadRelated_asks_once schema book author (.ofEntity bookEntity)
    books "author" ⟨anthology, .silent, 5, []⟩
  obtain ⟨-, asked⟩ := asks ⟨_, "author_id", 6, "id"⟩ _ _
    ⟨⟨_, _, rfl, rfl⟩, ⟨"id", rfl, rfl⟩, rfl⟩
    (.cons ⟨rfl, by decide⟩ (.cons ⟨rfl, by decide⟩ (.cons ⟨rfl, by decide⟩
      (.cons ⟨rfl, by decide⟩ .nil))))
  obtain ⟨-, calls, -⟩ := asked ⟨.int 7, List.mem_cons_self, by decide⟩ fun _ => rfl
  obtain ⟨refused, -⟩ := Action.loadRelated_asks_once schema book author (.ofEntity bookEntity)
    books "author" ⟨.ofConfig .default, .silent, 5, []⟩
  obtain ⟨_, _, failed, -⟩ := refused fun ⟨_, _, _, _, holds⟩ => by
    obtain ⟨_, _, ⟨attached, -⟩, -⟩ := List.forall₂_cons_left_iff.mp holds
    cases attached
  exact ⟨calls, congrArg (·.2.connection.calls) failed⟩

end Catalogue

end LazyMapper
