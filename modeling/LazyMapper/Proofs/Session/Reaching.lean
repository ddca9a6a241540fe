import LazyMapper.Model.Catalogue
import LazyMapper.Proofs.Session.Steps
import LazyMapper.Session.Hash

/-!
# Reachable programs

In every program that requests lead to from fresh sessions, entries and instances belong to the
models of their keys, these models have valid mappings, and the sets of loaded attributes and the
plans of instances are over the fields of these models (`Program.Reaches.wellTyped`).

`Event.find?_apply` says all that an event can do to the entry of a key; invariants of entries
follow from it.
-/

set_option autoImplicit false

namespace LazyMapper

/-! ## What events do to entries -/

/-- The change that an event makes of the entry of a key. -/
inductive Event.Changes (context : Context) (key : Key) (entry : Entry) :
    Event → EntryChange → Prop where
  | changed (change : EntryChange) : Changes context key entry (.changed key change) change
  | expired (state : entry.state ≠ .detached) :
      Changes context key entry .expiredAll
        (.expireAll (context.session.keyIndicesOf entry.model.table))
  | detached : Changes context key entry .detachedAll .detach

/-- The entry that a row makes. -/
def Entry.ofRow (model : Model) (record : Record) (row : Row) (handle : Nat) : Entry :=
  .fresh model record (.ofList model.entity.fields.length (model.selectedBy row)) handle

/-- **An event keeps the entry of a key, makes it, or changes it.** -/
theorem Event.find?_apply (context : Context) (event : Event) (key : Key) :
    (event.apply context).session.identities.find? key =
        context.session.identities.find? key ∨
      (∃ model record row, event = .created key model record row ∧
        (event.apply context).session.identities.find? key =
          some (.ofRow model record row context.nextHandle)) ∨
      ∃ entry change, context.session.identities.find? key = some entry ∧
        event.Changes context key entry change ∧
        (event.apply context).session.identities.find? key = some (change.apply entry) := by
  cases event with
  | checked | queried | counted | issued => exact .inl rfl
  | began => exact .inl (congrArg (·.find? key) (identities_execute _ _ context))
  | ended sql => exact .inl (congrArg (·.find? key) (identities_execute _ _ context))
  | met model => exact .inl (congrArg (·.find? key) (context.session.meet_identities model))
  | created other model record row =>
      have found := context.session.find?_withEntry other key
        (.ofRow model record row context.nextHandle)
      by_cases same : key = other
      · subst same
        exact .inr (.inl ⟨model, record, row, rfl, found.trans (if_pos rfl)⟩)
      · exact .inl (found.trans (if_neg same))
  | changed other change =>
      simp only [apply]
      cases there : context.session.identities.find? other with
      | none => exact .inl rfl
      | some entry =>
          have found := context.session.find?_withEntry other key (change.apply entry)
          by_cases same : key = other
          · subst same
            exact .inr (.inr ⟨entry, change, there, .changed change, found.trans (if_pos rfl)⟩)
          · exact .inl (found.trans (if_neg same))
  | expiredAll =>
      simp only [apply, Session.expireAll, IdentityMap.find?_mapEntries]
      cases there : context.session.identities.find? key with
      | none => exact .inl rfl
      | some entry =>
          by_cases state : entry.state = .detached
          · exact .inl (by rw [Option.map_some, if_pos state])
          · refine .inr (.inr ⟨entry, _, rfl, .expired state, ?_⟩)
            rw [Option.map_some, if_neg state]
            rfl
  | detachedAll =>
      simp only [apply, Session.expungeAll, IdentityMap.find?_mapEntries]
      cases there : context.session.identities.find? key with
      | none => exact .inl rfl
      | some entry => exact .inr (.inr ⟨entry, _, rfl, .detached, rfl⟩)

/-- Something that holds of all entries holds of them after an event, if it holds of the entry
that the event makes and is kept by the change that the event makes. -/
theorem Event.entries_apply {holds : Key → Entry → Prop} {context : Context} {event : Event}
    (before : ∀ key entry, context.session.identities.find? key = some entry → holds key entry)
    (created : ∀ key model record row, event = .created key model record row →
      holds key (.ofRow model record row context.nextHandle))
    (changed : ∀ key entry change, context.session.identities.find? key = some entry →
      event.Changes context key entry change → holds key entry → holds key (change.apply entry)) :
    ∀ key entry, (event.apply context).session.identities.find? key = some entry →
      holds key entry := by
  intro key entry after
  obtain same | ⟨model, record, row, made, found⟩ | ⟨old, change, there, changes, found⟩ :=
    event.find?_apply context key
  · exact before key entry (same ▸ after)
  · obtain rfl := Option.some.inj (found.symm.trans after)
    exact created key model record row made
  · obtain rfl := Option.some.inj (found.symm.trans after)
    exact changed key old change there changes (before key old there)

/-- An event keeps one entry at most for every key. -/
theorem Event.distinct_apply (context : Context) (event : Event)
    (distinct : context.session.identities.Distinct) :
    (event.apply context).session.identities.Distinct := by
  cases event with
  | checked | queried | counted | issued => exact distinct
  | began | ended =>
      simp only [apply, identities_execute]
      exact distinct
  | met model =>
      simp only [apply, Session.meet_identities]
      exact distinct
  | created key model record row => exact distinct.insert _ _
  | changed key change =>
      simp only [apply]
      split
      · exact distinct.insert _ _
      · exact distinct
  | expiredAll | detachedAll => exact distinct.mapEntries _

/-! ## Typed programs -/

/-- The entry belongs to the model of its key, whose mapping was checked. -/
structure Entry.Fits (models : String → Model) (configured : Configured) (key : Key)
    (entry : Entry) : Prop where
  typed : entry.model.Typed models
  named : key.typeName = entry.model.entity.typeName
  checked : entry.model.entity.typeName ∈ configured
  size : entry.loaded.size = entry.model.entity.fields.length

/-- The instance belongs to the model of its key, whose mapping was checked, and has a plan of
it. Its copy was taken of an entry of the model. -/
structure Instance.Fits (models : String → Model) (configured : Configured) (inst : Instance) :
    Prop where
  typed : inst.model.Typed models
  named : inst.key.typeName = inst.model.entity.typeName
  checked : inst.model.entity.typeName ∈ configured
  suits : inst.plan.Suits inst.model.entity
  size : inst.loaded.size = inst.model.entity.fields.length

/-- The mappings that are remembered are valid, and the entries fit. -/
structure Context.WellTyped (models : String → Model) (context : Context) : Prop where
  configured : ∀ name ∈ context.configured, (models name).entity.Valid
  entries : ∀ key entry, context.session.identities.find? key = some entry →
    entry.Fits models context.configured key

/-- The entries of all sessions and the instances fit, and the mappings that are remembered are
valid. -/
structure Program.WellTyped (models : String → Model) (program : Program) : Prop where
  schema : program.schema.Typed models
  configured : ∀ name ∈ program.configured, (models name).entity.Valid
  entries : ∀ session ∈ program.sessions, ∀ key entry,
    session.identities.find? key = some entry → entry.Fits models program.configured key
  instances : ∀ inst ∈ program.instances, inst.Fits models program.configured

variable {models : String → Model} {program : Program} {request : Request}

theorem Entry.Fits.mono {before after : Configured} {key : Key} {entry : Entry}
    (fits : entry.Fits models before key) (keeps : before ⊆ after) :
    entry.Fits models after key :=
  { fits with checked := keeps fits.checked }

theorem Instance.Fits.mono {before after : Configured} {inst : Instance}
    (fits : inst.Fits models before) (keeps : before ⊆ after) : inst.Fits models after :=
  { fits with checked := keeps fits.checked }

/-- The model of an instance is that of the entry under its key. -/
theorem Instance.Fits.model_eq {configured : Configured} {inst : Instance} {entry : Entry}
    (fits : inst.Fits models configured) (fits' : entry.Fits models configured inst.key) :
    inst.model = entry.model :=
  fits.typed.eq fits'.typed (fits.named.symm.trans fits'.named)

/-- A model whose record has the key of an entry is the model of the entry. -/
theorem Entry.Fits.model_eq [Hashable Digest] {configured : Configured} {model : Model}
    {record : Record} {key : Key} {entry : Entry} (fits : entry.Fits models configured key)
    (typed : model.Typed models) (keyed : key = Key.ofRecord model record) :
    model = entry.model := by
  refine typed.eq fits.typed ?_
  rw [← fits.named, keyed]
  rfl

/-- A row is delivered to a model that the request loads. -/
theorem Request.Delivers.loads {dialect : Sql.Dialect} {past : List Event} {model : Model}
    {row : Row} (delivered : request.Delivers dialect past model row) : model ∈ request.loaded := by
  cases delivered with
  | row loads => simp [loads]
  | part loads which => rwa [loads]

/-- A model in whose name something is checked has a valid mapping. -/
theorem Context.WellTyped.valid {context : Context} {model : Model}
    (well : context.WellTyped models) (typed : model.Typed models)
    (checked : model.entity.typeName ∈ context.configured) : model.entity.Valid := by
  have valid := well.configured _ checked
  rwa [show models model.entity.typeName = model from typed] at valid

/-! ## Fitting entries stay fitting -/

namespace Program

/-- The model of an attached instance is that of the entry. -/
theorem Attaches.model_eq {configured : Configured} {number : Nat} {inst : Instance} {key : Key}
    {entry : Entry} (attached : program.Attaches number inst key entry)
    (instances : ∀ inst ∈ program.instances, inst.Fits models configured)
    (fits : entry.Fits models configured key) : inst.model = entry.model := by
  obtain rfl := attached.key
  exact (instances inst (List.mem_of_getElem? attached.held)).model_eq fits

variable [Hashable Digest]

/-- A change that a request may cause keeps the size of the set of loaded attributes. -/
theorem Writes.size_eq {past : List Event} {session : Session} {key : Key} {entry : Entry}
    {change : EntryChange} {configured : Configured}
    (writes : program.Writes request past session key entry change)
    (instances : ∀ inst ∈ program.instances, inst.Fits models configured)
    (fits : entry.Fits models configured key) :
    (change.apply entry).loaded.size = entry.loaded.size := by
  cases writes with
  | absorb | fetch | assign =>
      refine Entry.assigning_induction (fun after =>
        after.loaded.size = entry.loaded.size) rfl fun _ same => ?_
      simp
  | refresh asked attached answered =>
      refine Entry.assigning_induction (fun after =>
        after.loaded.size = entry.loaded.size) rfl fun _ same => ?_
      have held := instances _ (List.mem_of_getElem? attached.held)
      rw [AttributeSet.size_ofList, fits.size, held.suits.length_eq,
        attached.model_eq instances fits]
  | expire => exact AttributeSet.size_eraseAll _ _
  | expireAll => exact AttributeSet.size_restrict _ _
  | delete | detach => rfl

/-- An allowed event keeps the mappings that are remembered. -/
theorem Allows.keeps_configured {past : List Event} {context : Context} {event : Event}
    (allowed : program.Allows models request past context event) :
    context.configured ⊆ (event.apply context).configured := by
  cases allowed with
  | checked learns => exact learns.keeps
  | began | ended =>
      simp only [Event.apply, Event.configured_execute]
      exact List.Subset.refl _
  | changed there writes =>
      rw [Event.apply_changed there]
      exact List.Subset.refl _
  | queried | counted | met | created | expiredAll | detachedAll | issued =>
      exact List.Subset.refl _

/-- **An allowed event keeps entries fitting.** -/
theorem Allows.wellTyped {past : List Event} {context : Context} {event : Event}
    (allowed : program.Allows models request past context event) (typed : request.Typed models)
    (instances : ∀ inst ∈ program.instances, inst.Fits models context.configured)
    (well : context.WellTyped models) : (event.apply context).WellTyped models where
  configured := by
    cases allowed with
    | checked learns =>
        intro name member
        rcases learns.checked name member with earlier | ⟨entity, known, rfl, valid⟩
        · exact well.configured name earlier
        · rw [show (models entity.typeName).entity = entity from known]
          exact Entity.valid_of_validate valid
    | began | ended =>
        simp only [Event.apply, Event.configured_execute]
        exact well.configured
    | changed there writes =>
        rw [Event.apply_changed there]
        exact well.configured
    | queried | counted | met | created | expiredAll | detachedAll | issued =>
        exact well.configured
  entries := by
    refine Event.entries_apply
      (fun key entry there => (well.entries key entry there).mono allowed.keeps_configured) ?_ ?_
    · rintro key model record row rfl
      cases allowed with
      | created delivered loads checked met made keyed absent =>
          exact ⟨typed.loaded loads, by rw [keyed]; rfl, checked,
            AttributeSet.size_ofList _ _⟩
    · intro key entry change there changes fits
      have size : (change.apply entry).loaded.size = entry.loaded.size := by
        cases changes with
        | changed =>
            cases allowed with
            | changed found writes =>
                obtain rfl := Option.some.inj (found.symm.trans there)
                exact writes.size_eq instances (well.entries _ _ there)
        | expired => exact AttributeSet.size_restrict _ _
        | detached => rfl
      refine ⟨?_, ?_, ?_, ?_⟩
      · rw [EntryChange.apply_model]
        exact fits.typed
      · rw [EntryChange.apply_model]
        exact fits.named
      · rw [EntryChange.apply_model]
        exact fits.checked
      · rw [EntryChange.apply_model, size]
        exact fits.size

/-! ## Runs -/

/-- The programs that requests lead to, each of them admitted where it is made. -/
inductive Reaches (admits : Program → Nat → Connection → Request → Prop) (start : Program) :
    Program → Prop where
  | start : Reaches admits start start
  | step {program : Program} {number : Nat} {connection : Connection} {request : Request}
      (before : Reaches admits start program)
      (admitted : admits program number connection request) :
      Reaches admits start (program.step number connection request).program

/-- What holds of the first program and is kept by every admitted request holds of all programs
reached. -/
theorem Reaches.keeps {admits : Program → Nat → Connection → Request → Prop}
    {start : Program} (holds : Program → Prop) (reached : Reaches admits start program)
    (first : holds start)
    (step : ∀ {program number connection request}, admits program number connection request →
      holds program → holds (program.step number connection request).program) :
    holds program := by
  induction reached with
  | start => exact first
  | step _ admitted ih => exact step admitted ih

theorem Reaches.trans {admits : Program → Nat → Connection → Request → Prop}
    {first second third : Program} (front : Reaches admits first second)
    (back : Reaches admits second third) : Reaches admits first third :=
  back.keeps (Reaches admits first) front fun admitted before => .step before admitted

omit [Hashable Digest] in
theorem WellTyped.context {number : Nat} {session : Session} {connection : Connection}
    (well : program.WellTyped models) (here : program.sessions[number]? = some session) :
    (program.contextOf session connection).WellTyped models where
  configured := well.configured
  entries := well.entries session (List.mem_of_getElem? here)

/-- The events of a request keep a context typed, and the instances of its program. -/
theorem WellTyped.history {number : Nat} {session : Session} {connection : Connection}
    {events : List Event} {context : Context} (well : program.WellTyped models)
    (typed : request.Typed models) (here : program.sessions[number]? = some session)
    (history : History (program.Allows models request) []
      (program.contextOf session connection) events context) :
    context.WellTyped models ∧ program.configured ⊆ context.configured := by
  refine history.keeps (fun _ => True)
    (fun context => context.WellTyped models ∧
      program.configured ⊆ context.configured)
    (fun _ _ => trivial) ⟨well.context here, List.Subset.refl _⟩ ?_
  rintro past context event allowed - - ⟨fits, keeps⟩
  exact ⟨allowed.wellTyped typed (fun inst member => (well.instances inst member).mono keeps) fits,
    List.Subset.trans keeps allowed.keeps_configured⟩

/-- **What allowed events keep is kept by a typed request.** `good` is what its events are known to
be. -/
theorem WellTyped.keeps {number : Nat} {session : Session} {connection : Connection}
    {events : List Event} {context : Context} (well : program.WellTyped models)
    (typed : request.Typed models) (here : program.sessions[number]? = some session)
    (history : History (program.Allows models request) []
      (program.contextOf session connection) events context)
    (good : Event → Prop) (holds : Context → Prop) (all : ∀ event ∈ events, good event)
    (start : holds (program.contextOf session connection))
    (step : ∀ {past : List Event} {context : Context} {event : Event},
      program.Allows models request past context event → (∀ event ∈ past, good event) →
      context.session.config = session.config →
      (∀ inst ∈ program.instances, inst.Fits models context.configured) →
      context.WellTyped models → holds context → holds (event.apply context)) :
    holds context := by
  refine (history.keeps good (fun context => context.session.config = session.config ∧
    context.WellTyped models ∧ program.configured ⊆ context.configured ∧ holds context) all
    ⟨rfl, well.context here, List.Subset.refl _, start⟩ ?_).2.2.2
  rintro past context event allowed earlier - ⟨config, fits, keeps, now⟩
  have instances inst member := (well.instances inst member).mono keeps
  exact ⟨(Event.apply_config _ _).trans config, allowed.wellTyped typed instances fits,
    List.Subset.trans keeps allowed.keeps_configured,
    step allowed earlier config instances fits now⟩

/-- An instance that an event issues fits, and is a copy of the entry of its key. -/
theorem Allows.issued_fits {past : List Event} {context : Context} {inst : Instance}
    (allowed : program.Allows models request past context (.issued inst))
    (typed : request.Typed models)
    (instances : ∀ inst ∈ program.instances, inst.Fits models context.configured)
    (well : context.WellTyped models) :
    inst.Fits models context.configured ∧ ∃ entry,
      context.session.identities.find? inst.key = some entry ∧
        inst = .ofEntry entry.model inst.key inst.plan entry := by
  cases allowed with
  | @issued _ entry there copy issues =>
      have own := well.entries inst.key entry there
      have size : inst.loaded.size = entry.model.entity.fields.length := by
        rw [copy]
        exact own.size
      have fits (typed : inst.model.Typed models)
          (named : inst.key.typeName = inst.model.entity.typeName)
          (suits : inst.plan.Suits inst.model.entity) :
          inst.Fits models context.configured ∧ ∃ entry,
            context.session.identities.find? inst.key = some entry ∧
              inst = .ofEntry entry.model inst.key inst.plan entry := by
        have same : inst.model = entry.model := typed.eq own.typed (named.symm.trans own.named)
        exact ⟨⟨typed, named, same ▸ own.checked, suits, same ▸ size⟩, entry, there, same ▸ copy⟩
      cases issues with
      | loaded loads _ suits named => exact fits (typed.loaded loads) named suits
      | kept held key model plan =>
          have old := instances _ (List.mem_of_getElem? held)
          refine fits ?_ ?_ ?_
          · rw [model]
            exact old.typed
          · rw [key, model]
            exact old.named
          · rw [plan, model]
            exact old.suits

/-- **A typed request keeps programs well typed.** -/
theorem WellTyped.step (well : program.WellTyped models) (typed : request.Typed models)
    (number : Nat) (connection : Connection) :
    (program.step number connection request).program.WellTyped models := by
  cases here : program.sessions[number]? with
  | none => rwa [step_of_no_session here]
  | some session =>
      obtain ⟨events, context, history, leaves⟩ :=
        step_history well.schema typed here connection
      obtain ⟨fits, keeps⟩ := well.history typed here history
      refine ⟨?_, ?_, ?_, ?_⟩
      · rw [leaves.schema]
        exact well.schema
      · rw [leaves.configured]
        exact fits.configured
      · rw [leaves.configured, leaves.sessions]
        intro other member key entry there
        rcases List.mem_or_eq_of_mem_set member with before | rfl
        · exact (well.entries other before key entry there).mono keeps
        · exact fits.entries key entry there
      · rw [leaves.configured]
        intro inst member
        rcases leaves.instances.mem member with before | issued
        · exact (well.instances inst before).mono keeps
        · obtain ⟨front, back, middle, rfl, earlier, allowed, later⟩ :=
            history.exists_of_mem issued
          obtain ⟨middleWell, keeps⟩ := well.history typed here earlier
          obtain ⟨fits, -⟩ := allowed.issued_fits typed (fun inst member =>
            (well.instances inst member).mono keeps) middleWell
          refine fits.mono ?_
          exact later.keeps (fun _ => True)
            (fun context => middle.configured ⊆ context.configured)
            (fun _ _ => trivial) (List.Subset.refl _)
            fun allowed _ _ keeps => List.Subset.trans keeps allowed.keeps_configured

omit [Hashable Digest] in
theorem wellTyped_ofConfigs {schema : Schema} (declared : schema.Typed models)
    (configs : List Config) : (ofConfigs schema configs).WellTyped models where
  schema := declared
  configured := nofun
  entries := by
    intro session member key entry there
    obtain ⟨config, -, rfl⟩ := List.mem_map.mp member
    cases there
  instances := nofun

/-- **Every program reached by typed requests is well typed.** -/
theorem Reaches.wellTyped {admits : Program → Nat → Connection → Request → Prop}
    {schema : Schema} {configs : List Config} (declared : schema.Typed models)
    (reached : Reaches admits (ofConfigs schema configs) program)
    (typed : ∀ {program number connection request},
      admits program number connection request → request.Typed models) :
    program.WellTyped models :=
  reached.keeps (·.WellTyped models) (wellTyped_ofConfigs declared configs)
    fun admitted well => well.step (typed admitted) _ _

/-- **What allowed events keep holds of all sessions after a typed request.** `good` is what the
events are known to be, given the dialect of the session. -/
theorem WellTyped.step_sessions (well : program.WellTyped models) (typed : request.Typed models)
    (number : Nat) (connection : Connection) (good : Sql.Dialect → Event → Prop)
    (holds : Session → Prop)
    (all : ∀ {session : Session} {events : List Event} {context : Context},
      program.sessions[number]? = some session →
      History (program.Allows models request) [] (program.contextOf session connection) events
        context →
      (program.step number connection request).Leaves program request number events context →
      ∀ event ∈ events, good session.config.dialect event)
    (before : ∀ session ∈ program.sessions, holds session)
    (kept : ∀ {past : List Event} {context : Context} {event : Event},
      program.Allows models request past context event →
      (∀ event ∈ past, good context.session.config.dialect event) →
      (∀ inst ∈ program.instances, inst.Fits models context.configured) →
      context.WellTyped models → holds context.session → holds (event.apply context).session) :
    ∀ session ∈ (program.step number connection request).program.sessions, holds session := by
  cases here : program.sessions[number]? with
  | none => rwa [step_of_no_session here]
  | some session =>
      obtain ⟨events, context, history, leaves⟩ :=
        step_history well.schema typed here connection
      rw [leaves.sessions]
      intro other member
      rcases List.mem_or_eq_of_mem_set member with earlier | rfl
      · exact before other earlier
      · refine well.keeps typed here history (good session.config.dialect)
          (fun context => holds context.session) (all here history leaves)
          (before session (List.mem_of_getElem? here)) ?_
        exact fun allowed past config instances fits now =>
          kept allowed (config ▸ past) instances fits now

/-- **What allowed events keep holds of all sessions reached**, if it holds of fresh ones. -/
theorem Reaches.sessions {admits : Program → Nat → Connection → Request → Prop}
    {schema : Schema} {configs : List Config} (declared : schema.Typed models)
    (reached : Reaches admits (ofConfigs schema configs) program)
    (typed : ∀ {program number connection request},
      admits program number connection request → request.Typed models)
    (holds : Session → Prop) (fresh : ∀ config, holds (.ofConfig config))
    (kept : ∀ {program : Program} {request : Request} {past : List Event} {context : Context}
      {event : Event}, program.Allows models request past context event → request.Typed models →
      (∀ inst ∈ program.instances, inst.Fits models context.configured) →
      context.WellTyped models → holds context.session → holds (event.apply context).session) :
    ∀ session ∈ program.sessions, holds session := by
  refine (reached.keeps (fun program => program.WellTyped models ∧
    ∀ session ∈ program.sessions, holds session) ⟨wellTyped_ofConfigs declared configs, ?_⟩ ?_).2
  · intro session member
    obtain ⟨config, -, rfl⟩ := List.mem_map.mp member
    exact fresh config
  · intro program number connection request admitted ⟨well, before⟩
    refine ⟨well.step (typed admitted) number connection, ?_⟩
    exact well.step_sessions (typed admitted) number connection (fun _ _ => True) holds
      (fun _ _ _ _ _ => trivial) before
      fun allowed _ instances fits now => kept allowed (typed admitted) instances fits now

/-- Every key of every session has one entry at most, whatever typed requests have led to the
program. -/
theorem Reaches.distinct {admits : Program → Nat → Connection → Request → Prop}
    {schema : Schema} {configs : List Config} (declared : schema.Typed models)
    (reached : Reaches admits (ofConfigs schema configs) program)
    (typed : ∀ {program number connection request},
      admits program number connection request → request.Typed models) :
    ∀ session ∈ program.sessions, session.identities.Distinct :=
  reached.sessions declared typed (·.identities.Distinct) (fun _ => .nil)
    fun {_ _ _ context event} _ _ _ _ distinct => event.distinct_apply context distinct

end Program

/-! ## A bookshop -/

namespace Catalogue

/-- The model of the catalogue that a type name stands for. -/
def modelOf (typeName : String) : Model := (Catalogue.models.lookup typeName).getD book

theorem exists_modelOf (typeName : String) :
    ∃ item ∈ Catalogue.models, item.2 = modelOf typeName := by
  unfold modelOf
  cases found : Catalogue.models.lookup typeName with
  | none => exact ⟨_, List.mem_cons_self, rfl⟩
  | some model =>
      obtain ⟨front, back, listed, -⟩ := List.lookup_eq_some_iff.mp found
      exact ⟨(typeName, model), by simp [listed], rfl⟩

theorem schema_typed : schema.Typed modelOf := by
  intro name entity found
  obtain ⟨front, back, listed, -⟩ := List.lookup_eq_some_iff.mp found
  have member : (name, entity) ∈ schema.entities := by simp [listed]
  simp only [schema, Catalogue.models, List.map_cons, List.map_nil, List.mem_cons, List.not_mem_nil,
    or_false, Prod.mk.injEq] at member
  obtain ⟨-, rfl⟩ | ⟨-, rfl⟩ | ⟨-, rfl⟩ | ⟨-, rfl⟩ | ⟨-, rfl⟩ | ⟨-, rfl⟩ | ⟨-, rfl⟩ | ⟨-, rfl⟩ |
    ⟨-, rfl⟩ | ⟨-, rfl⟩ | ⟨-, rfl⟩ := member <;> rfl

/-- The request for all instances of a model. -/
def everything (model : Model) : Request := .all model (.ofEntity model.entity)

theorem everything_typed (model : Model) (typed : model.Typed modelOf) :
    (everything model).Typed modelOf := by
  refine ⟨typed, fun entity member => ?_⟩
  obtain rfl := List.mem_singleton.mp member
  exact typed.entity

/-- A row of the book with a title. -/
def bookRow (title : String) : Row :=
  ⟨["id", "title", "isbn", "author_id"], [.int 1, .text title, .text "0141439580", .int 7]⟩

/-- The program whose only session has loaded a book. -/
def bookshop : Program :=
  ((Program.ofConfigs schema [.default]).step 0 ⟨[.ok [bookRow "Emma"]], [], []⟩
    (everything book)).program

theorem bookshop_wellTyped : bookshop.WellTyped modelOf :=
  (Program.wellTyped_ofConfigs schema_typed _).step (everything_typed book rfl) _ _

end Catalogue

end LazyMapper
