import LazyMapper.Proofs.Session.Following

/-!
# The histories of requests on instances

A request on an instance that a program holds changes at most the entry that the instance is
attached to. It leaves the instance as it was or with a new copy of that entry.
-/

set_option autoImplicit false

namespace LazyMapper

/-! ## Attached instances -/

/-- The instance is the other one, perhaps with another copy of its entry. -/
structure Instance.Resumes (inst old : Instance) : Prop where
  model : inst.model = old.model
  key : inst.key = old.key
  handle : inst.handle = old.handle
  plan : inst.plan = old.plan

namespace Instance.Resumes

variable {first second third : Instance}

theorem refl (inst : Instance) : inst.Resumes inst := ⟨rfl, rfl, rfl, rfl⟩

theorem trans (back : third.Resumes second) (front : second.Resumes first) :
    third.Resumes first :=
  ⟨back.model.trans front.model, back.key.trans front.key, back.handle.trans front.handle,
    back.plan.trans front.plan⟩

theorem sync (inst : Instance) (entry : Entry) : (inst.sync entry).Resumes inst :=
  ⟨rfl, rfl, rfl, rfl⟩

/-- An instance is attached to an entry with whatever copy of it. -/
theorem attached?_eq (resumes : second.Resumes first) (session : Session) :
    session.attached? second = session.attached? first := by
  unfold Session.attached? Session.entryOf?
  rw [resumes.key, resumes.handle]

end Instance.Resumes

theorem Instance.sync_eq_ofEntry {inst : Instance} {entry : Entry}
    (same : entry.handle = inst.handle) :
    inst.sync entry = .ofEntry inst.model inst.key inst.plan entry := by
  rw [sync, ofEntry, same]

/-- Whether an instance is attached depends on the entries alone. -/
theorem Session.attached_congr {first second : Session} (inst : Instance)
    (same : first.identities = second.identities) :
    first.attached inst = second.attached inst := by
  unfold attached attached? entryOf?
  rw [same]

theorem Session.countLoad_eq (session : Session) (inst : Instance) (index : Nat) :
    ∃ tracker, session.countLoad inst index = { session with tracker } := by
  unfold countLoad
  split
  · exact ⟨_, rfl⟩
  · exact ⟨session.tracker, rfl⟩

/-- An instance that a program holds is attached to an entry. -/
theorem Program.attaches_of_attached {program : Program} {session : Session} {number : Nat}
    {inst : Instance} {entry : Entry} (held : program.instances[number]? = some inst)
    (attached : session.attached inst = .ok entry) :
    session.identities.find? inst.key = some entry ∧
      program.Attaches number inst inst.key entry := by
  obtain ⟨there, handle, state⟩ :=
    session.attached?_eq_some.mp (session.attached_eq_ok.mp attached)
  exact ⟨there, held, rfl, handle, state⟩

/-- What a read of an attribute comes to. Unless the read fails at once, the instance has a new
copy of its entry. -/
theorem Session.readRequest_cases (session : Session) (inst : Instance) (name : String) :
    (∃ error, session.readRequest inst name = (.error error, inst)) ∨
      ∃ index entry, inst.plan.index? name = some index ∧ session.attached inst = .ok entry ∧
        ((∃ error, session.readRequest inst name = (.error error, inst.sync entry)) ∨
          entry.loaded.contains index = true ∧
            session.readRequest inst name =
              (.ok (.loaded (inst.model.attributeOrNull entry.record name)), inst.sync entry) ∨
          entry.loaded.contains index = false ∧
            session.readRequest inst name =
              (.ok (.fetch index (inst.plan.fetchIndices index entry.loaded)
                (inst.model.keyOf entry.record)), inst.sync entry)) := by
  unfold readRequest Instance.index
  cases position : inst.plan.index? name with
  | none => exact .inl ⟨_, rfl⟩
  | some index =>
      dsimp only
      cases attached : session.attached inst with
      | error error => exact .inl ⟨error, rfl⟩
      | ok entry =>
          refine .inr ⟨index, entry, rfl, rfl, ?_⟩
          dsimp only
          split
          · exact .inl ⟨_, rfl⟩
          · cases loaded : entry.loaded.contains index with
            | true => exact .inr (.inl ⟨rfl, rfl⟩)
            | false =>
                rw [if_neg Bool.false_ne_true]
                split
                · exact .inl ⟨_, rfl⟩
                · exact .inr (.inr ⟨rfl, rfl⟩)

/-- A read that comes to a fetch is of an attached instance, which has a new copy of its entry. -/
theorem Session.attached_of_fetch {session : Session} {inst copy : Instance} {name : String}
    {index : Nat} {indices : List Nat} {key : List Value}
    (read : session.readRequest inst name = (.ok (.fetch index indices key), copy)) :
    ∃ entry, session.attached inst = .ok entry ∧ copy = inst.sync entry := by
  obtain ⟨error, other⟩ | ⟨_, entry, -, attached, ⟨error, other⟩ | ⟨-, other⟩ | ⟨-, fetched⟩⟩ :=
    session.readRequest_cases inst name
  · cases read.symm.trans other
  · cases read.symm.trans other
  · cases read.symm.trans other
  · exact ⟨entry, attached, congrArg Prod.snd (read.symm.trans fetched)⟩

/-- A refresh that comes to a query is of an attached instance. -/
theorem Session.attached_of_refreshRequest {session : Session} {inst : Instance} {key : List Value}
    (read : session.refreshRequest inst = .ok key) :
    ∃ entry, session.attached inst = .ok entry := by
  unfold refreshRequest at read
  cases attached : session.attached inst with
  | error error =>
      rw [attached] at read
      cases read
  | ok entry => exact ⟨entry, rfl⟩

/-! ## Histories of actions on instances -/

namespace Action

variable [Hashable Digest]

/-- An action on an instance adds a history to the events before, and leaves the instance as it
was or with a copy of its entry that is issued in the history. -/
def OnInstance.Follows {α : Type} (allowed : List Event → Context → Event → Prop)
    (inst : Instance) (past : List Event) (context : Context)
    (run : Outcome α × Instance × Context) : Prop :=
  ∃ events, History allowed past context events run.2.2 ∧
    (run.2.1 = inst ∨ run.2.1.Resumes inst ∧ .issued run.2.1 ∈ events)

namespace OnInstance.Follows

variable {α : Type} {allowed : List Event → Context → Event → Prop} {inst issued : Instance}
  {past : List Event} {context : Context} {run : Outcome α × Instance × Context} {event : Event}

omit [Hashable Digest] in
theorem unchanged {outcome : Outcome α} : Follows allowed inst past context
    (outcome, inst, context) :=
  ⟨[], .nil, .inl rfl⟩

omit [Hashable Digest] in
/-- An event before the rest of an action. -/
theorem after (here : allowed past context event)
    (later : Follows allowed inst (past ++ [event]) (event.apply context) run) :
    Follows allowed inst past context run := by
  obtain ⟨events, history, given⟩ := later
  exact ⟨event :: events, .cons here history,
    given.imp_right fun given => ⟨given.1, List.mem_cons_of_mem _ given.2⟩⟩

omit [Hashable Digest] in
/-- An instance issued before the rest of an action, which may leave it at that. -/
theorem issue (here : allowed past context (.issued issued)) (resumes : issued.Resumes inst)
    (later : Follows allowed issued (past ++ [.issued issued]) context run) :
    Follows allowed inst past context run := by
  obtain ⟨events, history, given⟩ := later
  refine ⟨.issued issued :: events, .cons here history, .inr ?_⟩
  rcases given with same | ⟨same, member⟩
  · rw [same]
    exact ⟨resumes, List.mem_cons_self⟩
  · exact ⟨same.trans resumes, List.mem_cons_of_mem _ member⟩

end OnInstance.Follows

variable {models : String → Model} {program : Program} {request : Request} {past : List Event}
  {context : Context} {number : Nat} {inst : Instance} {entry : Entry}

/-- An attached instance that takes a copy of its entry is issued. -/
theorem allows_issued (there : context.session.identities.find? inst.key = some entry)
    (handle : entry.handle = inst.handle) (held : program.instances[number]? = some inst) :
    program.Allows models request past context (.issued (inst.sync entry)) :=
  .issued there (Instance.sync_eq_ofEntry handle) (.kept held rfl rfl rfl)

variable {α : Type} {run : Outcome α × Instance × Context} {copy : Instance}
  {change : EntryChange}

/-- A change of the entry that an instance is attached to, before the rest of an action. -/
theorem change_follows (attached : context.session.attached inst = .ok entry)
    (held : program.instances[number]? = some inst)
    (writes : program.Attaches number inst inst.key entry →
      program.Writes request past context.session inst.key entry change)
    (later : ∀ past', OnInstance.Follows (program.Allows models request) copy past'
      { context with session := context.session.withEntry inst.key (change.apply entry) } run) :
    OnInstance.Follows (program.Allows models request) copy past context run := by
  obtain ⟨there, attaches⟩ := Program.attaches_of_attached held attached
  refine .after (.changed there (writes attaches)) ?_
  rw [Event.apply_changed there]
  exact later _

/-- A change after which the instance takes a new copy of the entry. -/
theorem change_issue_follows (attached : context.session.attached inst = .ok entry)
    (held : program.instances[number]? = some inst) (resumes : inst.Resumes copy)
    (writes : program.Attaches number inst inst.key entry →
      program.Writes request past context.session inst.key entry change)
    (later : ∀ past', OnInstance.Follows (program.Allows models request)
      (inst.sync (change.apply entry)) past'
      { context with session := context.session.withEntry inst.key (change.apply entry) } run) :
    OnInstance.Follows (program.Allows models request) copy past context run := by
  refine change_follows attached held writes fun past' => ?_
  obtain ⟨-, attaches⟩ := Program.attaches_of_attached held attached
  refine .issue (allows_issued ?_ ?_ held) ((Instance.Resumes.sync inst _).trans resumes) (later _)
  · exact (context.session.find?_withEntry inst.key inst.key _).trans (if_pos rfl)
  · rw [EntryChange.apply_handle, attaches.handle]

/-- A load is counted without any other effect. -/
theorem count_follows {outcome : Outcome α} {session : Session} (counted : Instance)
    (index : Nat) :
    OnInstance.Follows (program.Allows models request) copy past { context with session }
      (outcome, copy, { context with session := session.countLoad counted index }) := by
  obtain ⟨tracker, same⟩ := session.countLoad_eq counted index
  rw [same]
  exact .after (.counted tracker) .unchanged

/-! ## Queries by the key of an instance -/

/-- An action that sends a query by key and lets a step receive the rows. -/
theorem afterQuery_follows {columns : List String} {key : List Value}
    {step : List Row → Session → Except Error α × Instance × Session}
    (received : ∀ rows past' context',
      .queried ((inst.plan.entity.queryByKey columns key).build context'.session.config.dialect)
        (.ok rows) ∈ past' → context.SameEntries context' →
      OnInstance.Follows (program.Allows models request) inst past' context'
        (onInstance (step rows) context')) :
    OnInstance.Follows (program.Allows models request) inst past context
      (afterQuery inst columns key step context) := by
  have asked : Follows (program.Allows models request) (queryByKey inst columns key) past context
      fun rows past' context' =>
        .queried ((inst.plan.entity.queryByKey columns key).build
          context'.session.config.dialect) (.ok rows) ∈ past' ∧ context.SameEntries context' := by
    refine .session ((query_follows _).mono ?_)
    rintro rows past' context' ⟨-, answered, same⟩
    rw [same.config]
    exact ⟨answered, same⟩
  unfold afterQuery
  unfold Follows Ends at asked
  generalize (queryByKey inst columns key).run.run context = reply at asked ⊢
  obtain ⟨result, context'⟩ := reply
  cases result with
  | error interruption =>
      obtain ⟨events, history⟩ := asked
      exact ⟨events, history, .inl rfl⟩
  | ok rows =>
      obtain ⟨events, history, answered, same⟩ := asked
      obtain ⟨more, later, given⟩ := received rows _ context' answered same
      exact ⟨events ++ more, history.append later,
        given.imp_right fun given => ⟨given.1, List.mem_append_right _ given.2⟩⟩

/-- Receiving the rows of a fetch, by an instance that has a copy of its entry. -/
theorem receiveFetched_follows {name : String} {index : Nat} {rows : List Row}
    (asked : request = .load number name) (held : program.instances[number]? = some inst)
    (attached : context.session.attached inst = .ok entry)
    (position : inst.plan.index? name = some index)
    (unloaded : entry.loaded.contains index = false)
    (answered : Program.AnsweredByKey context.session.config.dialect past inst entry
      (inst.plan.columnsAt (inst.plan.fetchIndices index entry.loaded)) rows) :
    OnInstance.Follows (program.Allows models request) (inst.sync entry) past context
      (onInstance (fun session => session.receiveFetched (inst.sync entry) name index
        (inst.plan.fetchIndices index entry.loaded) (inst.model.keyOf entry.record) rows)
        context) := by
  have synced : context.session.attached (inst.sync entry) = .ok entry := attached
  unfold onInstance
  dsimp only
  cases rows with
  | nil =>
      unfold Session.receiveFetched
      rw [synced]
      exact change_follows attached held
        (fun attaches => .delete (.inr ⟨name, asked⟩) attaches answered) fun _ => .unchanged
  | cons row rest =>
      have writes (attaches : program.Attaches number inst inst.key entry) :
          program.Writes request past context.session inst.key entry
            (.fetch inst.model inst.plan (inst.plan.fetchIndices index entry.loaded) row) :=
        .fetch asked attaches position unloaded answered
      rw [Session.receiveFetched_row _ synced]
      cases ((inst.sync entry).model.assignAll entry.record
          ((inst.sync entry).plan.assignments row
            (inst.plan.fetchIndices index entry.loaded))).2 with
      | error error => exact change_follows attached held writes fun _ => .unchanged
      | ok _ =>
          exact change_issue_follows attached held ⟨rfl, rfl, rfl, rfl⟩ writes
            fun _ => count_follows _ index

/-- Reading an attribute fetches it into the entry of the instance. -/
theorem loadAttribute_follows {name : String} (asked : request = .load number name)
    (held : program.instances[number]? = some inst) :
    OnInstance.Follows (program.Allows models request) inst past context
      (loadAttribute inst name context) := by
  unfold loadAttribute
  obtain ⟨error, failed⟩ | ⟨index, entry, position, attached, cases⟩ :=
    context.session.readRequest_cases inst name
  · rw [failed]
    exact .unchanged
  obtain ⟨there, attaches⟩ := Program.attaches_of_attached held attached
  have issued {past : List Event} :
      program.Allows models request past context (.issued (inst.sync entry)) :=
    allows_issued there attaches.handle held
  rcases cases with ⟨error, failed⟩ | ⟨-, loaded⟩ | ⟨unloaded, fetched⟩
  · rw [failed]
    exact .issue issued (.sync inst entry) .unchanged
  · rw [loaded]
    exact .issue issued (.sync inst entry) .unchanged
  · rw [fetched]
    refine .issue issued (.sync inst entry) (afterQuery_follows ?_)
    intro rows past' context' answered same
    have attached' : context'.session.attached inst = .ok entry := by
      rw [Session.attached_congr inst same.identities, attached]
    exact receiveFetched_follows asked held attached' position unloaded answered

/-- Receiving the rows of a refresh. -/
theorem receiveRefreshed_follows {key : List Value} {rows : List Row}
    (asked : request = .refresh number) (held : program.instances[number]? = some inst)
    (attached : context.session.attached inst = .ok entry)
    (answered : Program.AnsweredByKey context.session.config.dialect past inst entry
      inst.plan.eagerColumns rows) :
    OnInstance.Follows (program.Allows models request) inst past context
      (onInstance (fun session => session.receiveRefreshed inst key rows) context) := by
  unfold onInstance
  dsimp only
  cases rows with
  | nil =>
      unfold Session.receiveRefreshed
      rw [attached]
      exact change_follows attached held
        (fun attaches => .delete (.inl asked) attaches answered) fun _ => .unchanged
  | cons row rest =>
      have writes (attaches : program.Attaches number inst inst.key entry) :
          program.Writes request past context.session inst.key entry
            (.refresh inst.model inst.plan row) :=
        .refresh asked attaches answered
      rw [Session.receiveRefreshed_row _ attached]
      cases (inst.model.assignAll entry.record
          (inst.plan.assignments row inst.plan.eagerIndices)).2 with
      | error error => exact change_follows attached held writes fun _ => .unchanged
      | ok _ => exact change_issue_follows attached held (.refl inst) writes fun _ => .unchanged

theorem refresh_follows (asked : request = .refresh number)
    (held : program.instances[number]? = some inst) :
    OnInstance.Follows (program.Allows models request) inst past context
      (refresh inst context) := by
  unfold refresh Session.refreshRequest
  cases attached : context.session.attached inst with
  | error error => exact .unchanged
  | ok entry =>
      refine afterQuery_follows ?_
      intro rows past' context' answered same
      have attached' : context'.session.attached inst = .ok entry := by
        rw [Session.attached_congr inst same.identities, attached]
      exact receiveRefreshed_follows asked held attached' answered

/-! ## Requests that send nothing -/

omit [Hashable Digest] in
theorem onInstance_eq {step : Session → Except Error α × Instance × Session}
    {result : Except Error α} {session : Session}
    (done : step context.session = (result, inst, session)) :
    onInstance step context = (outcome result, inst, { context with session }) := by
  unfold onInstance
  rw [done]

theorem setAttribute_follows {name : String} {value : Value}
    (asked : request = .set number name value)
    (held : program.instances[number]? = some inst) :
    OnInstance.Follows (program.Allows models request) inst past context
      (onInstance (·.setAttribute inst name value) context) := by
  obtain ⟨error, failed⟩ | ⟨index, entry, position, free, attached, done⟩ :=
    context.session.setAttribute_cases inst name value
  · rw [onInstance_eq failed]
    exact .unchanged
  · rw [onInstance_eq done]
    exact change_issue_follows attached held (.refl inst)
      (fun attaches => .assign asked attaches position free) fun _ => .unchanged

theorem expire_follows {names : List String} (asked : request = .expire number names)
    (held : program.instances[number]? = some inst) :
    OnInstance.Follows (program.Allows models request) inst past context
      (onInstance (·.expire inst names) context) := by
  have met : program.Allows models request past context (.met inst.model) :=
    .met (.inr ⟨inst, List.mem_of_getElem? held, rfl⟩)
  obtain ⟨error, failed⟩ | ⟨indices, positions, ⟨error, failed⟩ | ⟨entry, attached, done⟩⟩ :=
    context.session.expire_cases inst names
  · rw [onInstance_eq failed]
    exact .unchanged
  · rw [onInstance_eq failed]
    exact .after met .unchanged
  · rw [onInstance_eq done]
    have attached' : (Event.apply context (.met inst.model)).session.attached inst = .ok entry :=
      attached
    refine .after met (change_issue_follows attached' held (.refl inst) ?_ fun _ => .unchanged)
    intro attaches
    cases indices with
    | nil =>
        have none : names = [] := by
          simpa using (forall₂_of_mapM_eq_ok positions).length_eq
        subst none
        exact .expireAll asked attaches
    | cons index rest => exact .expire asked attaches positions (by simp)

theorem expunge_follows (asked : request = .expunge number)
    (held : program.instances[number]? = some inst) :
    OnInstance.Follows (program.Allows models request) inst past context
      (onInstance (fun session => (.ok (), inst, session.expunge inst)) context) := by
  unfold onInstance
  rcases context.session.expunge_cases inst with ⟨-, unchanged⟩ | ⟨entry, attached, done⟩
  · dsimp only
    rw [unchanged]
    exact .unchanged
  · dsimp only
    rw [done]
    exact change_follows (context.session.attached_eq_ok.mpr attached) held
      (fun attaches => .detach asked attaches) fun _ => .unchanged

end Action

end LazyMapper
