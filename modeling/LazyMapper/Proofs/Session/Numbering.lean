import LazyMapper.Proofs.Session.Reaching

/-!
# Handle numbers

Handle numbers are handed out once, over all sessions of a program. So no two entries have the same
one (`Program.Numbered`), and an entry with the number of an earlier one is that entry as changes
have left it, in the same session and under the same key (`Program.Continues`). Its version has not
gone down, it has lost nothing that was loaded unless under a new version, and if it was detached it
is so still (`Entry.Evolves`).

That a change detaches nothing for a while only is a property of the changes that requests cause:
rows are merged into live entries, and every other change is made of an entry that is not detached
(`Program.Writes.evolves`).
-/

set_option autoImplicit false

namespace LazyMapper

/-! ## What changes leave of an entry -/

/-- The entry is an earlier one as changes have left it. -/
structure Entry.Evolves (old entry : Entry) : Prop where
  handle : entry.handle = old.handle
  model : entry.model = old.model
  version : old.version ≤ entry.version
  loaded : entry.version = old.version → ∀ index ∈ old.loaded, index ∈ entry.loaded
  detached : old.state = .detached → entry.state = .detached

namespace Entry.Evolves

variable {first second third entry : Entry}

theorem refl (entry : Entry) : entry.Evolves entry :=
  ⟨rfl, rfl, Nat.le_refl _, fun _ _ member => member, id⟩

theorem trans (front : first.Evolves second) (back : second.Evolves third) :
    first.Evolves third where
  handle := back.handle.trans front.handle
  model := back.model.trans front.model
  version := Nat.le_trans front.version back.version
  loaded := by
    intro same index member
    have between := front.version
    have behind := back.version
    exact back.loaded (by omega) index (front.loaded (by omega) index member)
  detached := back.detached ∘ front.detached

/-- Assigning attributes, and loading more of them without a new version. -/
theorem assigning {model : Model} {assignments : List (String × Value)} {settle : Entry → Entry}
    (attached : entry.state ≠ .detached)
    (settles : ∀ after : Entry, after.state ≠ .detached → after.Evolves (settle after)) :
    entry.Evolves (entry.assigning model assignments settle) :=
  Entry.assigning_induction (entry.Evolves ·)
    ⟨rfl, rfl, Nat.le_refl _, fun _ _ member => member, id⟩
    fun _ unsettled => unsettled.trans (settles _ attached)

end Entry.Evolves

/-- A change of an entry that is not detached. -/
theorem EntryChange.evolves {entry : Entry} (attached : entry.state ≠ .detached)
    (change : EntryChange) : entry.Evolves (change.apply entry) := by
  have vacuous {after : Entry} {state : EntryState} (attached : after.state ≠ .detached)
      (detached : after.state = .detached) : state = .detached := absurd detached attached
  cases change with
  | absorb | fetch =>
      simp only [apply]
      exact .assigning attached fun after attached => ⟨rfl, rfl, Nat.le_refl _,
        fun _ _ member => AttributeSet.contains_insertAll_of_contains _ member, vacuous attached⟩
  | refresh =>
      simp only [apply]
      exact .assigning attached fun after attached => ⟨rfl, rfl, Nat.le_succ _,
        fun same => absurd same (Nat.succ_ne_self _), vacuous attached⟩
  | assign _ index =>
      simp only [apply]
      exact .assigning attached fun after _ => ⟨rfl, rfl, Nat.le_refl _,
        fun _ other member => (after.loaded.contains_insert index other).mpr (.inl member), id⟩
  | expire | expireAll =>
      exact ⟨rfl, rfl, Nat.le_succ _, fun same => absurd same (Nat.succ_ne_self _),
        vacuous attached⟩
  | delete => exact ⟨rfl, rfl, Nat.le_refl _, fun _ _ member => member, vacuous attached⟩
  | detach => exact ⟨rfl, rfl, Nat.le_refl _, fun _ _ member => member, fun _ => rfl⟩

theorem EntryState.reload_eq_detached {state : EntryState} :
    state.reload = .detached ↔ state = .detached := by
  cases state <;> decide

theorem EntryState.expire_eq_detached {state : EntryState} :
    state.expire = .detached ↔ state = .detached := by
  cases state <;> decide

/-- Nothing but detaching makes an entry detached that was not. -/
theorem EntryChange.state_ne_detached {entry : Entry} {change : EntryChange}
    (attached : entry.state ≠ .detached) (other : change ≠ .detach) :
    (change.apply entry).state ≠ .detached := by
  cases change with
  | absorb | refresh =>
      exact Entry.assigning_induction (fun after => after.state ≠ .detached) attached
        fun _ _ => nofun
  | fetch =>
      exact Entry.assigning_induction (fun after => after.state ≠ .detached) attached
        fun _ => mt EntryState.reload_eq_detached.mp
  | assign =>
      exact Entry.assigning_induction (fun after => after.state ≠ .detached) attached
        fun _ => id
  | expire | expireAll => exact mt EntryState.expire_eq_detached.mp attached
  | delete => exact nofun
  | detach => exact absurd rfl other

namespace Program

variable [Hashable Digest] {models : String → Model} {program : Program} {request : Request}
  {past : List Event} {context : Context} {event : Event} {key : Key} {entry : Entry}

/-- A request changes no detached entry. -/
theorem Writes.evolves {session : Session} {change : EntryChange}
    (writes : program.Writes request past session key entry change) :
    entry.Evolves (change.apply entry) := by
  refine change.evolves fun detached => ?_
  cases writes with
  | absorb _ _ _ live =>
      rw [detached] at live
      cases live
  | fetch _ attached | refresh _ attached | assign _ attached | expire _ attached
  | expireAll _ attached | delete _ attached | detach _ attached => exact attached.state detached

/-- The entry of a key after an allowed event is the one before as a change has left it, or is made
by the event and takes the next handle number. -/
theorem Allows.evolves (allowed : program.Allows models request past context event)
    (there : (event.apply context).session.identities.find? key = some entry) :
    (∃ old, context.session.identities.find? key = some old ∧ old.Evolves entry) ∨
    (∃ model record row, event = .created key model record row) ∧
      entry.handle = context.nextHandle ∧
        context.nextHandle < (event.apply context).nextHandle := by
  obtain same | ⟨model, record, row, rfl, found⟩ | ⟨old, change, before, changes, found⟩ :=
    event.find?_apply context key
  · exact .inl ⟨entry, same ▸ there, .refl entry⟩
  · obtain rfl := Option.some.inj (found.symm.trans there)
    exact .inr ⟨⟨model, record, row, rfl⟩, rfl, Nat.lt_succ_self _⟩
  · obtain rfl := Option.some.inj (found.symm.trans there)
    refine .inl ⟨old, before, ?_⟩
    cases changes with
    | changed =>
        cases allowed with
        | changed here writes =>
            obtain rfl := Option.some.inj (here.symm.trans before)
            exact writes.evolves
    | expired attached => exact EntryChange.evolves attached _
    | detached => exact ⟨rfl, rfl, Nat.le_refl _, fun _ _ member => member, fun _ => rfl⟩

end Program

/-! ## Numbers of one session -/

/-- No two keys have entries with one handle number, and all handle numbers are used up. -/
structure Session.Numbered (session : Session) (unused : Nat) : Prop where
  below : ∀ key entry, session.identities.find? key = some entry → entry.handle < unused
  apart : ∀ key entry key' entry', session.identities.find? key = some entry →
    session.identities.find? key' = some entry' → entry.handle = entry'.handle → key = key'

/-- The entry of a key is one that was there before, or has a handle number that was unused. -/
def Session.Continues (before after : Session) (unused : Nat) : Prop :=
  ∀ key entry, after.identities.find? key = some entry →
    (∃ old, before.identities.find? key = some old ∧ old.Evolves entry) ∨ unused ≤ entry.handle

theorem Session.Continues.refl (session : Session) (unused : Nat) :
    session.Continues session unused :=
  fun _ entry there => .inl ⟨entry, there, .refl entry⟩

theorem Event.nextHandle_le (context : Context) (event : Event) :
    context.nextHandle ≤ (event.apply context).nextHandle := by
  cases event with
  | began | ended =>
      simp only [apply, execute]
      split <;> exact Nat.le_refl _
  | created => exact Nat.le_succ _
  | changed key change =>
      simp only [apply]
      split <;> exact Nat.le_refl _
  | checked | queried | counted | met | expiredAll | detachedAll | issued => exact Nat.le_refl _

namespace Program.Allows

variable [Hashable Digest] {models : String → Model} {program : Program} {request : Request}
  {past : List Event} {context : Context} {event : Event}

theorem numbered (allowed : program.Allows models request past context event)
    (numbered : context.session.Numbered context.nextHandle) :
    (event.apply context).session.Numbered (event.apply context).nextHandle where
  below := by
    intro key entry there
    obtain ⟨old, before, evolves⟩ | ⟨-, handle, less⟩ := allowed.evolves there
    · rw [evolves.handle]
      exact Nat.lt_of_lt_of_le (numbered.below key old before) (event.nextHandle_le context)
    · rwa [handle]
  apart := by
    intro key entry key' entry' there there' same
    obtain ⟨old, before, ⟨handle⟩⟩ | ⟨⟨_, _, _, made⟩, handle, -⟩ := allowed.evolves there <;>
      obtain ⟨old', before', ⟨handle'⟩⟩ | ⟨⟨_, _, _, made'⟩, handle', -⟩ := allowed.evolves there'
    · exact numbered.apart key old key' old' before before' (by rw [← handle, same, handle'])
    · have less := numbered.below key old before
      omega
    · have less := numbered.below key' old' before'
      omega
    · rw [made] at made'
      injection made'

theorem continues {before : Session} {unused : Nat}
    (allowed : program.Allows models request past context event)
    (continues : before.Continues context.session unused) (used : unused ≤ context.nextHandle) :
    before.Continues (event.apply context).session unused := by
  intro key entry there
  obtain ⟨middle, between, evolves⟩ | ⟨-, handle, -⟩ := allowed.evolves there
  · obtain ⟨old, was, earlier⟩ | new := continues key middle between
    · exact .inl ⟨old, was, earlier.trans evolves⟩
    · exact .inr (evolves.handle ▸ new)
  · exact .inr (handle ▸ used)

end Program.Allows

/-! ## Numbers of all sessions -/

namespace Program

/-- The entry of a key in the session of a number. -/
def entryAt? (program : Program) (number : Nat) (key : Key) : Option Entry :=
  (program.sessions[number]?).bind (·.identities.find? key)

/-- No two entries of all sessions have one handle number, and all handle numbers are used up. -/
structure Numbered (program : Program) : Prop where
  below : ∀ {number key entry}, program.entryAt? number key = some entry →
    entry.handle < program.nextHandle
  apart : ∀ {number key entry number' key' entry'}, program.entryAt? number key = some entry →
    program.entryAt? number' key' = some entry' → entry.handle = entry'.handle →
      number = number' ∧ key = key'

/-- The entries of a program are those that an earlier one had, as changes have left them, or have
handle numbers that were unused then. -/
structure Continues (before after : Program) : Prop where
  used : before.nextHandle ≤ after.nextHandle
  length : after.sessions.length = before.sessions.length
  entries : ∀ {number key entry}, after.entryAt? number key = some entry →
    (∃ old, before.entryAt? number key = some old ∧ old.Evolves entry) ∨
      before.nextHandle ≤ entry.handle

variable {models : String → Model} {program : Program} {request : Request} {number : Nat}
  {key : Key} {entry : Entry}

theorem entryAt?_eq_some : program.entryAt? number key = some entry ↔
    ∃ session, program.sessions[number]? = some session ∧
      session.identities.find? key = some entry :=
  Option.bind_eq_some_iff

theorem numbered_ofConfigs (schema : Schema) (configs : List Config) :
    (ofConfigs schema configs).Numbered := by
  have empty {number : Nat} {key : Key} {entry : Entry} :
      (ofConfigs schema configs).entryAt? number key ≠ some entry := by
    intro there
    obtain ⟨session, here, found⟩ := entryAt?_eq_some.mp there
    obtain ⟨config, -, rfl⟩ := List.mem_map.mp (List.mem_of_getElem? here)
    cases found
  exact ⟨fun there => absurd there empty, fun there => absurd there empty⟩

theorem Continues.refl (program : Program) : program.Continues program :=
  ⟨Nat.le_refl _, rfl, fun there => .inl ⟨_, there, .refl _⟩⟩

theorem Continues.trans {first second third : Program} (front : first.Continues second)
    (back : second.Continues third) : first.Continues third where
  used := Nat.le_trans front.used back.used
  length := back.length.trans front.length
  entries := by
    intro number key entry there
    obtain ⟨middle, found, evolves⟩ | new := back.entries there
    · obtain ⟨old, was, earlier⟩ | new := front.entries found
      · exact .inl ⟨old, was, earlier.trans evolves⟩
      · exact .inr (evolves.handle ▸ new)
    · exact .inr (Nat.le_trans front.used new)

theorem Numbered.session (numbered : program.Numbered) {session : Session}
    (here : program.sessions[number]? = some session) : session.Numbered program.nextHandle :=
  have before {key : Key} {entry : Entry} (there : session.identities.find? key = some entry) :
      program.entryAt? number key = some entry :=
    entryAt?_eq_some.mpr ⟨session, here, there⟩
  ⟨fun _ _ there => numbered.below (before there),
    fun _ _ _ _ there there' same => (numbered.apart (before there) (before there') same).2⟩

/-- An entry was there before the context of a session was put back, or the session has made it in
the meantime. -/
theorem entryAt?_withContext {session : Session} {context : Context}
    (here : program.sessions[number]? = some session)
    (continues : session.Continues context.session program.nextHandle) {other : Nat}
    (there : (program.withContext number context).entryAt? other key = some entry) :
    (∃ old, program.entryAt? other key = some old ∧ old.Evolves entry) ∨
    other = number ∧ program.nextHandle ≤ entry.handle ∧
      context.session.identities.find? key = some entry := by
  obtain ⟨session', here', found⟩ := entryAt?_eq_some.mp there
  simp only [withContext] at here'
  by_cases same : number = other
  · subst same
    rw [List.getElem?_set_self (List.getElem?_eq_some_iff.mp here).1] at here'
    obtain rfl := Option.some.inj here'
    rcases continues key entry found with ⟨old, before, evolves⟩ | new
    · exact .inl ⟨old, entryAt?_eq_some.mpr ⟨session, here, before⟩, evolves⟩
    · exact .inr ⟨rfl, new, found⟩
  · rw [List.getElem?_set_ne same] at here'
    exact .inl ⟨entry, entryAt?_eq_some.mpr ⟨session', here', found⟩, .refl entry⟩

variable [Hashable Digest]

/-- **The events of a request continue the entries and keep their handle numbers apart**, up to any
point of its history. -/
theorem Numbered.history {asking : Program} {session : Session} {connection : Connection}
    {past events : List Event} {context : Context} (numbered : program.Numbered)
    (here : program.sessions[number]? = some session)
    (history : History (asking.Allows models request) past
      (program.contextOf session connection) events context) :
    (program.withContext number context).Numbered ∧
      program.Continues (program.withContext number context) := by
  obtain ⟨own, used, continues⟩ := history.keeps (fun _ => True) (fun context =>
    context.session.Numbered context.nextHandle ∧ program.nextHandle ≤ context.nextHandle ∧
      session.Continues context.session program.nextHandle) (fun _ _ => trivial)
    ⟨numbered.session here, Nat.le_refl _, .refl session _⟩
    fun {_ context event} allowed _ _ ⟨numbered, used, continues⟩ =>
      ⟨allowed.numbered numbered, Nat.le_trans used (event.nextHandle_le context),
        allowed.continues continues used⟩
  have origin {other : Nat} {key : Key} {entry : Entry}
      (there : (program.withContext number context).entryAt? other key = some entry) :=
    entryAt?_withContext here continues there
  refine ⟨⟨fun there => ?_, fun there there' same => ?_⟩, used, List.length_set, fun there => ?_⟩
  · change _ < context.nextHandle
    obtain ⟨old, was, ⟨handle⟩⟩ | ⟨-, -, found⟩ := origin there
    · have less := numbered.below was
      omega
    · exact own.below _ _ found
  · obtain ⟨old, was, ⟨handle⟩⟩ | ⟨other, new, found⟩ := origin there <;>
      obtain ⟨old', was', ⟨handle'⟩⟩ | ⟨other', new', found'⟩ := origin there'
    · exact numbered.apart was was' (by rw [← handle, same, handle'])
    · have less := numbered.below was
      omega
    · have less := numbered.below was'
      omega
    · exact ⟨other.trans other'.symm, own.apart _ _ _ _ found found' same⟩
  · exact (origin there).imp_right fun made => made.2.1

omit [Hashable Digest] in
/-- The program after a request is the one before with the request's context put back, except for
the instances. -/
theorem Step.Leaves.program_eq {step : Step} {events : List Event} {context : Context}
    (leaves : step.Leaves program request number events context) :
    step.program =
      { program.withContext number context with instances := step.program.instances } := by
  obtain ⟨outcome, calls, after⟩ := step
  obtain ⟨schema, sessions, instances, nextHandle, configured⟩ := after
  obtain ⟨rfl, rfl, rfl, rfl, -, -⟩ := leaves
  rfl

/-- **A typed request continues the entries and keeps their handle numbers apart.** -/
theorem Numbered.step (numbered : program.Numbered) (well : program.WellTyped models)
    (typed : request.Typed models) (number : Nat) (connection : Connection) :
    (program.step number connection request).program.Numbered ∧
      program.Continues (program.step number connection request).program := by
  cases here : program.sessions[number]? with
  | none =>
      rw [step_of_no_session here]
      exact ⟨numbered, .refl program⟩
  | some session =>
      obtain ⟨events, context, history, leaves⟩ :=
        step_history well.schema typed here connection
      obtain ⟨apart, continues⟩ := numbered.history here history
      rw [leaves.program_eq]
      exact ⟨⟨apart.below, apart.apart⟩, continues.used, continues.length, continues.entries⟩

/-! ## Runs -/

theorem Reaches.numbered {admits : Program → Nat → Connection → Request → Prop}
    {schema : Schema} {configs : List Config} (declared : schema.Typed models)
    (reached : Reaches admits (ofConfigs schema configs) program)
    (typed : ∀ {program number connection request},
      admits program number connection request → request.Typed models) : program.Numbered :=
  (reached.keeps (fun program => program.WellTyped models ∧ program.Numbered)
    ⟨wellTyped_ofConfigs declared configs, numbered_ofConfigs schema configs⟩
    fun {_ number connection _} admitted ⟨well, numbered⟩ =>
      ⟨well.step (typed admitted) number connection,
        (numbered.step well (typed admitted) number connection).1⟩).2

/-- Typed requests continue the entries of the program that they start from. -/
theorem Reaches.continues {admits : Program → Nat → Connection → Request → Prop}
    {before after : Program} (well : before.WellTyped models) (numbered : before.Numbered)
    (reached : Reaches admits before after)
    (typed : ∀ {program number connection request},
      admits program number connection request → request.Typed models) :
    before.Continues after :=
  (reached.keeps (fun program => program.WellTyped models ∧ program.Numbered ∧
      before.Continues program) ⟨well, numbered, .refl before⟩
    fun {_ number connection _} admitted ⟨well, numbered, continues⟩ =>
      have ⟨apart, more⟩ := numbered.step well (typed admitted) number connection
      ⟨well.step (typed admitted) number connection, apart, continues.trans more⟩).2.2

end Program

end LazyMapper
