import LazyMapper.Proofs.Session.Merging
import LazyMapper.Proofs.Session.Sending

/-!
# Rows and the entries that they reach

A request that loads instances checks and compiles, sends its query and merges the rows of the
answer, one after the other. Up to the rows no entry is touched. A row reaches the entry of its key
only: a live one absorbs it and is persistent then, and one that stands for no row any more makes
room for a new entry with a number of its own (`Entry.Joins`). A row that is refused ends the
request, and its entry stays in its state.

So an entry goes through one change of state at most, however many rows there are for it. This is
said of every request at once (`Context.Loaded`), since all of them are a query with merges behind
it (`Action.query_bind_loaded`).
-/

set_option autoImplicit false

namespace LazyMapper

/-! ## Entries -/

/-- What the entry of a key has become when rows were merged. New handle numbers are not below
`unused`. -/
inductive Entry.Joins [Hashable Digest] (parts : List (Model × Row)) (unused : Nat) (key : Key)
    (old : Entry) : Entry → Prop where
  /-- No row of the key was merged. -/
  | untouched : Joins parts unused key old old
  /-- The entry was live and has absorbed the rows of the key. -/
  | absorbed {entry : Entry} {model : Model} {row : Row} (live : old.state.isLive)
      (merged : (model, row) ∈ parts) (keyed : model.rowKey? row = some key)
      (taken : (old.absorb model row).2 = .ok ()) (handle : entry.handle = old.handle)
      (state : entry.state = .persistent) : Joins parts unused key old entry
  /-- The entry was not live, and a row of the key has made a new one. -/
  | replaced {entry : Entry} {model : Model} {row : Row} (gone : old.state.isLive = false)
      (merged : (model, row) ∈ parts) (keyed : model.rowKey? row = some key)
      (handle : unused ≤ entry.handle) (state : entry.state = .persistent) :
      Joins parts unused key old entry

namespace Entry.Joins

variable [Hashable Digest] {parts : List (Model × Row)} {unused : Nat} {key : Key}
  {old entry : Entry} {model : Model} {row : Row}

/-- One more row of the key goes into a live entry. -/
theorem absorb (joins : old.Joins parts unused key entry) (live : entry.state.isLive)
    (merged : (model, row) ∈ parts) (keyed : model.rowKey? row = some key)
    (taken : (model.assignAll entry.record
      (model.assignments row (entry.missingFrom model row))).2 = .ok ()) :
    old.Joins parts unused key (EntryChange.apply entry (.absorb model row)) := by
  have handle := EntryChange.apply_handle entry (.absorb model row)
  have state : (EntryChange.apply entry (.absorb model row)).state = .persistent := by
    rw [EntryChange.apply, Entry.assigning_of_ok taken]
  cases joins with
  | untouched =>
      refine .absorbed live merged keyed ?_ handle state
      rw [EntryChange.absorb_eq]
      exact taken
  | absorbed live merged keyed taken same =>
      exact .absorbed live merged keyed taken (handle.trans same) state
  | replaced gone merged keyed new => exact .replaced gone merged keyed (handle ▸ new) state

/-- Where there is no live entry, no row of the key was merged before. -/
theorem replace {fresh : Entry} (joins : old.Joins parts unused key entry)
    (gone : entry.state.isLive = false) (merged : (model, row) ∈ parts)
    (keyed : model.rowKey? row = some key) (handle : unused ≤ fresh.handle)
    (state : fresh.state = .persistent) : old.Joins parts unused key fresh := by
  cases joins with
  | untouched => exact .replaced gone merged keyed handle state
  | absorbed _ _ _ _ _ state | replaced _ _ _ _ state =>
      rw [state] at gone
      cases gone

end Entry.Joins

/-! ## Merging -/

/-- The entries have joined rows, and handle numbers were used up in the meantime. -/
structure Context.Joined [Hashable Digest] (parts : List (Model × Row)) (before after : Context) :
    Prop where
  used : before.nextHandle ≤ after.nextHandle
  entries : ∀ key old, before.session.identities.find? key = some old → ∃ entry,
    after.session.identities.find? key = some entry ∧
      old.Joins parts before.nextHandle key entry

namespace Action

variable [Hashable Digest] {α β : Type} {parts : List (Model × Row)} {before : Context}

/-- An action that lets entries join rows. When it fails, all of them have their state from before
the failure. -/
def Merges (parts : List (Model × Row)) (action : Action α) : Prop :=
  ∀ before now : Context, before.Joined parts now →
    Ends action now (fun _ after => before.Joined parts after) fun _ after =>
      ∃ middle : Context, before.Joined parts middle ∧ middle.session.KeepsStates after.session

namespace Merges

variable {action : Action α} {next : α → Action β}

theorem pure (result : α) : Merges parts (Pure.pure result) :=
  fun _ _ joined => joined

theorem bind (first : Merges parts action) (rest : ∀ result, Merges parts (next result)) :
    Merges parts (action >>= next) := by
  intro before now joined
  rw [ends_bind]
  exact (first before now joined).mono (fun result after joined => rest result before after joined)
    fun _ _ failed => failed

theorem mapM {step : α → Action β} {items : List α}
    (each : ∀ item ∈ items, Merges parts (step item)) : Merges parts (items.mapM step) := by
  induction items with
  | nil =>
      rw [List.mapM_nil]
      exact .pure []
  | cons item rest ih =>
      rw [List.mapM_cons]
      obtain ⟨here, there⟩ := List.forall_mem_cons.mp each
      exact here.bind fun _ => (ih there).bind fun _ => .pure _

end Merges

/-- A merged row reaches the entry of its key. -/
theorem MergesRow.joined {model : Model} {row : Row} {now after : Context} {key : Key}
    {entry : Entry} (merged : MergesRow model row now after key entry)
    (member : (model, row) ∈ parts) (keyed : model.rowKey? row = some key)
    (joined : before.Joined parts now) : before.Joined parts after := by
  refine ⟨Nat.le_trans joined.used merged.handles, fun other old there => ?_⟩
  obtain ⟨current, found, joins⟩ := joined.entries other old there
  rw [merged.find?_eq]
  by_cases own : other = key
  · subst own
    refine ⟨entry, if_pos rfl, ?_⟩
    cases state : current.state.isLive with
    | true =>
        have live : now.session.live? other = some current := by
          rw [Session.live?, found, Option.filter_some, if_pos state]
        obtain ⟨rfl, taken⟩ := merged.absorbs current live
        exact joins.absorb state member keyed taken
    | false =>
        have missing : now.session.live? other = none := by
          rw [Session.live?, found, Option.filter_some, if_neg (Bool.eq_false_iff.mp state)]
        obtain ⟨record, -, rfl⟩ := merged.creates missing
        exact joins.replace state member keyed joined.used rfl
  · exact ⟨current, (if_neg own).trans found, joins⟩

theorem mergeRow_merges {model : Model} {row : Row} (plan : LoadPlan)
    (member : (model, row) ∈ parts) : Merges parts (mergeRow model plan row) := by
  intro before now joined
  refine (mergeRow_ends model plan row now).mono ?_ fun _ after ⟨kept, _⟩ => ⟨now, joined, kept⟩
  rintro _ after ⟨key, entry, keyed, -, merged⟩
  exact merged.joined member keyed joined

/-- A row is merged for a single model. -/
theorem mergeRow_merges_rows {model : Model} {row : Row} {rows : List Row} (plan : LoadPlan)
    (member : row ∈ rows) :
    Merges (rows.flatMap (·.partsFor [model])) (mergeRow model plan row) :=
  mergeRow_merges plan (List.mem_flatMap.mpr ⟨row, member, List.mem_cons_self⟩)

theorem mergePair_merges {left right : Model} {row : Row} {rows : List Row}
    (leftPlan rightPlan : LoadPlan) (member : row ∈ rows) :
    Merges (rows.flatMap (·.partsFor [left, right]))
      (mergePair left right leftPlan rightPlan row) := by
  have part (model : Model) (which : model ∈ [left, right]) :
      (model, row.stripLabel (Sql.SelectItem.label model.table)) ∈
        rows.flatMap (·.partsFor [left, right]) :=
    List.mem_flatMap.mpr ⟨row, member, List.mem_map_of_mem which⟩
  refine (mergeRow_merges leftPlan (part left (by simp))).bind fun _ => ?_
  exact (mergeRow_merges rightPlan (part right (by simp))).bind fun _ => .pure _

end Action

/-! ## Queries -/

/-- The entries and the supply of handle numbers are as before. -/
structure Context.SameIdentities (before after : Context) : Prop where
  identities : after.session.identities = before.session.identities
  nextHandle : after.nextHandle = before.nextHandle

theorem Context.SameIdentities.joined [Hashable Digest] {before after : Context}
    (same : before.SameIdentities after) (parts : List (Model × Row)) : before.Joined parts after :=
  ⟨Nat.le_of_eq same.nextHandle.symm,
    fun _ old there => ⟨old, same.identities ▸ there, .untouched⟩⟩

/-- An answer with rows was got for a query that was sent. -/
def Context.Answered (before after : Context) (rows : List Row) : Prop :=
  before.connection.queryReplies.headD (.ok []) = .ok rows ∧
    ∃ sql params, .query sql params ∈ after.connection.calls

/-- A request for instances of models leaves all entries alone, or it has sent its query and the
entries have joined the rows of the answer. -/
def Context.Loaded [Hashable Digest] (models : List Model) (before after : Context) : Prop :=
  before.SameIdentities after ∨
    ∃ rows middle, before.Answered after rows ∧
      before.Joined (rows.flatMap (·.partsFor models)) middle ∧
      middle.session.KeepsStates after.session

/-- What was configured before does not matter. -/
theorem Context.Loaded.of_configured [Hashable Digest] {models : List Model}
    {before after : Context} {configured : Configured}
    (loaded : { before with configured }.Loaded models after) :
    before.Loaded models after := by
  obtain ⟨identities, handles⟩ | ⟨rows, middle, answered, ⟨used, entries⟩, states⟩ := loaded
  · exact .inl ⟨identities, handles⟩
  · exact .inr ⟨rows, middle, answered, ⟨used, entries⟩, states⟩

namespace Action

variable {α β : Type} {models : List Model} {context : Context}

/-- A query touches no entry, and has been sent when it is answered. -/
theorem query_ends (statement : String × List Value) (context : Context) :
    Ends (query statement) context
      (fun rows after => context.SameIdentities after ∧ context.Answered after rows)
      fun _ after => context.SameIdentities after := by
  obtain ⟨⟨⟨autoBegin, _, _, _⟩, inTransaction, _, _, _⟩, ⟨queries, executions, calls⟩, _, _⟩ :=
    context
  have sent (calls : List Call) : Call.query statement.1 statement.2 ∈
      calls ++ [.query statement.1 statement.2] := List.mem_append_right _ List.mem_cons_self
  match autoBegin, inTransaction, executions, queries with
  | false, false, _, [] | false, true, _, [] | true, true, _, [] | true, false, [], []
  | true, false, .ok () :: _, [] => exact ⟨⟨rfl, rfl⟩, rfl, _, _, sent _⟩
  | false, false, _, .ok rows :: _ | false, true, _, .ok rows :: _
  | true, true, _, .ok rows :: _ | true, false, [], .ok rows :: _
  | true, false, .ok () :: _, .ok rows :: _ => exact ⟨⟨rfl, rfl⟩, rfl, _, _, sent _⟩
  | false, false, _, .error _ :: _ | false, true, _, .error _ :: _
  | true, true, _, .error _ :: _ | true, false, [], .error _ :: _
  | true, false, .ok () :: _, .error _ :: _ | true, false, .error _ :: _, _ => exact ⟨rfl, rfl⟩

/-- An action on an instance that sends a query touches no entry until the rows are received. -/
theorem afterQuery_cases (inst : Instance) (columns : List String) (key : List Value)
    (step : List Row → Session → Except Error α × Instance × Session) (context : Context) :
    (∃ interruption after, context.SameIdentities after ∧
      afterQuery inst columns key step context = (.error interruption, inst, after)) ∨
    ∃ rows middle, context.SameIdentities middle ∧ context.Answered middle rows ∧
      afterQuery inst columns key step context = onInstance (step rows) middle := by
  have ends := query_ends ((inst.plan.entity.queryByKey columns key).build
    context.session.config.dialect) context
  unfold Ends at ends
  unfold afterQuery
  rw [queryByKey_run]
  generalize (query _).run.run context = run at ends ⊢
  obtain ⟨interruption | rows, after⟩ := run
  · exact .inl ⟨interruption, after, ends, rfl⟩
  · exact .inr ⟨rows, after, ends.1, ends.2, rfl⟩

theorem Silent.connection_eq {action : Action α} (silent : Silent action) (context : Context) :
    (action.run.run context).2.connection = context.connection := by
  obtain ⟨outcome, after, -, run⟩ := silent context
  rw [show action.run.run context = _ from run context.connection]
  rfl

/-- However the action ends, `holds` holds of the context that it leaves. -/
def Leaves (action : Action α) (context : Context) (holds : Context → Prop) : Prop :=
  Ends action context (fun _ => holds) fun _ => holds

variable [Hashable Digest]

theorem Still.loaded {action : Action α} (still : Still action) :
    Leaves action context (context.Loaded models) := by
  obtain ⟨outcome, after, session, handles, run⟩ := still context
  unfold Leaves Ends
  rw [show action.run.run context = _ from run context.connection]
  cases outcome <;> exact .inl ⟨congrArg Session.identities session, handles⟩

/-- What is done before a query leaves the entries alone. -/
theorem Still.bind_loaded {action : Action α} {next : α → Action β} (still : Still action)
    (rest : ∀ result after, after.session = context.session →
      Leaves (next result) after (after.Loaded models)) :
    Leaves (action >>= next) context (context.Loaded models) := by
  obtain ⟨outcome, ⟨_, _, _, configured⟩, session, handles, run⟩ := still context
  unfold Leaves Ends
  rw [run_bind, show action.run.run context = _ from run context.connection]
  cases outcome with
  | error interruption => exact .inl ⟨congrArg Session.identities session, handles⟩
  | ok result =>
      dsimp only at session handles
      subst session handles
      exact (rest result { context with configured } rfl).mono
        (fun _ _ loaded => loaded.of_configured) fun _ _ loaded => loaded.of_configured

theorem fail_bind_loaded (error : Error) (next : α → Action β) :
    Leaves (fail error >>= next) context (context.Loaded models) :=
  (Still.fail_bind error next).loaded

/-- **A query with merges behind it** lets the entries join the rows of its answer. -/
theorem query_bind_loaded {next : List Row → Action α} (silent : ∀ rows, Silent (next rows))
    (merges : ∀ rows, Merges (rows.flatMap (·.partsFor models)) (next rows))
    (statement : String × List Value) :
    Leaves (query statement >>= next) context (context.Loaded models) := by
  unfold Leaves
  rw [ends_bind]
  refine (query_ends statement context).mono ?_ fun _ _ same => .inl same
  rintro rows middle ⟨same, replied, sql, params, called⟩
  have kept := (silent rows).connection_eq middle
  have merged := merges rows context middle (same.joined _)
  unfold Ends at merged ⊢
  generalize (next rows).run.run middle = ended at kept merged ⊢
  obtain ⟨_ | _, after⟩ := ended
  · obtain ⟨last, joined, states⟩ := merged
    exact .inr ⟨rows, last, ⟨replied, sql, params, kept ▸ called⟩, joined, states⟩
  · exact .inr ⟨rows, after, ⟨replied, sql, params, kept ▸ called⟩, merged, .of_identities rfl⟩

omit [Hashable Digest] in
/-- What is returned of the result does not matter. -/
theorem Leaves.bind_pure {action : Action α} {holds : Context → Prop}
    (leaves : Leaves action context holds) (give : α → β) :
    Leaves (do return give (← action)) context holds := by
  unfold Leaves
  rw [ends_bind]
  exact leaves.mono (fun _ _ holds => holds) fun _ _ holds => holds

/-! ## Requests that load instances -/

variable (schema : Schema) (model : Model) (statement : Statement)

theorem all_loaded (context : Context) :
    Leaves (all schema model statement) context (context.Loaded [model]) := by
  refine (still_compile schema statement).bind_loaded fun compiled _ _ => ?_
  dsimp only
  split
  · exact fail_bind_loaded _ _
  refine (still_planFor compiled model).bind_loaded fun plan _ _ => ?_
  exact query_bind_loaded (fun _ => .mapM (silent_mergeRow model plan) _)
    (fun _ => .mapM fun _ member => mergeRow_merges_rows plan member) _

theorem first_loaded (context : Context) :
    Leaves (first schema model statement) context (context.Loaded [model]) :=
  (all_loaded schema model (statement.limit 1) context).bind_pure List.head?

theorem allPairs_loaded (left right : Model) (context : Context) :
    Leaves (allPairs schema left right statement) context (context.Loaded [left, right]) := by
  refine (still_compile schema statement).bind_loaded fun compiled _ _ => ?_
  dsimp only
  split
  · exact fail_bind_loaded _ _
  refine (still_planFor compiled left).bind_loaded fun leftPlan _ _ => ?_
  refine (still_planFor compiled right).bind_loaded fun rightPlan _ _ => ?_
  exact query_bind_loaded (fun _ => .mapM (silent_mergePair left right leftPlan rightPlan) _)
    (fun _ => .mapM fun _ member => mergePair_merges leftPlan rightPlan member) _

theorem getByKey_loaded (values : List Value) (options : List LoaderOption) (context : Context) :
    Leaves (getByKey schema model values options) context (context.Loaded [model]) := by
  unfold getByKey
  dsimp only
  split
  · exact fail_bind_loaded _ _
  refine (Still.ofExcept _).bind_loaded fun statement _ _ => ?_
  refine (still_compile schema statement).bind_loaded fun compiled _ _ => ?_
  refine (still_planFor compiled model).bind_loaded fun plan _ _ => ?_
  refine Still.session.bind_loaded fun session _ _ => ?_
  split
  · exact (Still.pure _).loaded
  · refine query_bind_loaded (fun rows => ?_) (fun rows => ?_) _
    · cases rows with
      | nil => exact .pure none
      | cons row rest => exact .bind (silent_mergeRow model plan row) fun _ => .pure _
    · cases rows with
      | nil => exact .pure none
      | cons row rest =>
          exact (mergeRow_merges_rows plan List.mem_cons_self).bind fun _ => .pure _

theorem loadRelated_loaded (related : Model) (parents : List Instance) (path : String)
    (context : Context) :
    Leaves (loadRelated schema model related statement parents path) context
      (context.Loaded [related]) := by
  refine (still_compile schema statement).bind_loaded fun compiled _ _ => ?_
  refine (still_ofConfiguring _).bind_loaded fun target _ _ => ?_
  split
  · exact (Still.fail _).loaded
  refine (Still.ofExcept _).bind_loaded fun column _ _ => ?_
  split
  · exact (Still.fail _).loaded
  refine Still.session.bind_loaded fun session _ _ => ?_
  refine (Still.ofExcept _).bind_loaded fun values _ _ => ?_
  dsimp only
  split
  · exact (Still.pure _).loaded
  · exact query_bind_loaded (fun _ => .mapM (silent_mergeRow related target.plan) _)
      (fun _ => .mapM fun _ member => mergeRow_merges_rows target.plan member) _

end Action

end LazyMapper
