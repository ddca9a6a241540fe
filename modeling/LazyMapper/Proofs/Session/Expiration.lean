import LazyMapper.Model.Catalogue
import LazyMapper.Proofs.Session.Reaching

/-!
# What expiring leaves loaded

Expiring should leave the attributes of an entry's own primary key loaded and no others of those
expired. A session does not ask the model of the entry, though: it remembers for every table the
key positions of the first model of that table it met. So expiring does what it should exactly
when these positions are the key of the entry, as far as its loaded attributes go
(`Program.expiring_keeps_keys_iff`). They are in a session that meets one model of each table, or
only models whose keys stand at the same positions (`Program.Reaches.remembers_of_agreeing`).

With two models of one table it depends on which of them came first:
`Catalogue.expireAll_loses_key_of_lite`.
-/

set_option autoImplicit false

namespace LazyMapper

/-! ## What should be left -/

/-- The entry afterwards has lost the named attributes that were loaded, except its own primary
key, and is otherwise the same. -/
structure Entry.KeepsOwnKey (before after : Entry) (named : Nat → Prop) : Prop where
  loaded : ∀ index, after.loaded.contains index = true ↔
    before.loaded.contains index = true ∧ (named index → index ∈ before.model.entity.keyIndices)
  version : after.version = before.version + 1
  record : after.record = before.record
  model : after.model = before.model
  handle : after.handle = before.handle

namespace Session

/-- Every entry that is not detached keeps nothing loaded but its own primary key, and the
detached ones are untouched. -/
def ExpiresAllButKeys (before after : Session) : Prop :=
  ∀ key entry, before.identities.find? key = some entry →
    (entry.state = .detached → after.identities.find? key = some entry) ∧
    (entry.state ≠ .detached → ∃ expired, after.identities.find? key = some expired ∧
      entry.KeepsOwnKey expired fun _ => True)

/-- The entry of an instance loses the named attributes except its own primary key, all of them
if none is named, and the other entries are untouched. -/
def ExpiresButKey (before after : Session) (inst : Instance) (names : List String) : Prop :=
  (∀ key, key ≠ inst.key → after.identities.find? key = before.identities.find? key) ∧
    ∃ entry expired, before.attached? inst = some entry ∧
      after.identities.find? inst.key = some expired ∧
      entry.KeepsOwnKey expired fun index =>
        names = [] ∨ ∃ name ∈ names, entry.model.entity.index? name = some index

/-- The positions that a session remembers for the table of an entry are those of the entry's own
primary key, as far as named and loaded attributes go. -/
def Remembers (session : Session) (entry : Entry) (named : Nat → Prop) : Prop :=
  ∀ index, entry.loaded.contains index = true → named index →
    (index ∈ session.keyIndicesOf entry.model.table ↔ index ∈ entry.model.entity.keyIndices)

end Session

/-! ## Entries -/

namespace Entry

theorem contains_expireAll (entry : Entry) (remembered : List Nat) (index : Nat) :
    (entry.expireAll remembered).loaded.contains index = true ↔
      entry.loaded.contains index = true ∧ index ∈ remembered :=
  entry.loaded.contains_restrict remembered index

theorem contains_expire (entry : Entry) (indices remembered : List Nat) (index : Nat) :
    (entry.expire indices remembered).loaded.contains index = true ↔
      entry.loaded.contains index = true ∧ (index ∈ indices → index ∈ remembered) := by
  refine (entry.loaded.contains_eraseAll _ index).trans (and_congr_right fun _ => ?_)
  rw [List.mem_filter]
  simp

/-- An entry that keeps remembered positions keeps its own key exactly when these agree on what
is named and loaded. -/
theorem keepsOwnKey_iff (entry after : Entry) (remembered : List Nat) (named : Nat → Prop)
    (loaded : ∀ index, after.loaded.contains index = true ↔
      entry.loaded.contains index = true ∧ (named index → index ∈ remembered))
    (version : after.version = entry.version + 1) (record : after.record = entry.record)
    (model : after.model = entry.model) (handle : after.handle = entry.handle) :
    entry.KeepsOwnKey after named ↔ ∀ index, entry.loaded.contains index = true → named index →
      (index ∈ remembered ↔ index ∈ entry.model.entity.keyIndices) := by
  constructor
  · intro keeps index before here
    have kept := (loaded index).symm.trans (keeps.loaded index)
    simpa [before, here] using kept
  · intro agree
    refine ⟨fun index => (loaded index).trans (and_congr_right fun before => ?_), version, record,
      model, handle⟩
    exact forall_congr' fun here => agree index before here

/-- The change that expires attributes at given positions, all of them if there is none, keeps the
entry's own key exactly when the remembered positions agree with it on these. -/
theorem expiring_keepsOwnKey_iff (entry : Entry) (indices remembered : List Nat) :
    entry.KeepsOwnKey
        (EntryChange.apply entry
          (if indices.isEmpty then .expireAll remembered else .expire indices remembered))
        (fun index => indices = [] ∨ index ∈ indices) ↔
      ∀ index, entry.loaded.contains index = true → (indices = [] ∨ index ∈ indices) →
        (index ∈ remembered ↔ index ∈ entry.model.entity.keyIndices) := by
  cases indices with
  | nil =>
      refine keepsOwnKey_iff entry _ remembered _ (fun index => ?_) rfl rfl rfl rfl
      refine (entry.contains_expireAll remembered index).trans (and_congr_right fun _ => ?_)
      simp
  | cons first rest =>
      refine keepsOwnKey_iff entry _ remembered _ (fun index => ?_) rfl rfl rfl rfl
      refine (entry.contains_expire (first :: rest) remembered index).trans
        (and_congr_right fun _ => ?_)
      simp

end Entry

/-! ## Sessions -/

namespace Session

theorem find?_expireAll (session : Session) (key : Key) :
    session.expireAll.identities.find? key =
      (session.identities.find? key).map fun entry =>
        if entry.state = .detached then entry
        else entry.expireAll (session.keyIndicesOf entry.model.table) :=
  session.identities.find?_mapEntries _ key

/-- Expiring everything leaves exactly the primary keys exactly when the remembered positions are
right for all entries. -/
theorem expiresAllButKeys_iff (session : Session) :
    session.ExpiresAllButKeys session.expireAll ↔
      ∀ key entry, session.identities.find? key = some entry → entry.state ≠ .detached →
        session.Remembers entry fun _ => True := by
  refine forall_congr' fun key => forall_congr' fun entry => forall_congr' fun there => ?_
  rw [find?_expireAll, there, Option.map_some]
  by_cases state : entry.state = .detached
  · simp [state]
  · rw [if_neg state]
    have exact := Entry.keepsOwnKey_iff entry
      (entry.expireAll (session.keyIndicesOf entry.model.table))
      (session.keyIndicesOf entry.model.table) (fun _ => True)
      (fun index => by simpa using entry.contains_expireAll _ index) rfl rfl rfl rfl
    constructor
    · rintro ⟨-, keeps⟩ -
      obtain ⟨expired, found, keeps⟩ := keeps state
      obtain rfl := Option.some.inj found
      exact exact.mp keeps
    · intro remembers
      exact ⟨fun detached => absurd detached state,
        fun _ => ⟨_, rfl, exact.mpr (remembers state)⟩⟩

/-- Contexts with the same entries and remembered positions expire alike. -/
theorem expiresAllButKeys_congr {session middle : Session}
    (identities : middle.identities = session.identities)
    (keyIndices : middle.keyIndices = session.keyIndices) :
    session.ExpiresAllButKeys middle.expireAll ↔
      session.ExpiresAllButKeys session.expireAll := by
  unfold ExpiresAllButKeys
  rw [show middle.expireAll.identities = session.expireAll.identities by
    simp only [expireAll, keyIndicesOf, identities, keyIndices]]

/-- Putting a change of an instance's entry in its place leaves the other entries as they are, so
only the change matters. -/
theorem expiresButKey_iff {session met : Session} {inst : Instance} {names : List String}
    {entry : Entry} (attached : session.attached? inst = some entry)
    (same : met.identities = session.identities) (expired : Entry) :
    session.ExpiresButKey (met.withEntry inst.key expired) inst names ↔
      entry.KeepsOwnKey expired fun index =>
        names = [] ∨ ∃ name ∈ names, entry.model.entity.index? name = some index := by
  have found (key : Key) := met.find?_withEntry inst.key key expired
  constructor
  · rintro ⟨-, old, other, attached', after, keeps⟩
    obtain rfl := Option.some.inj (attached.symm.trans attached')
    obtain rfl := Option.some.inj (((found _).trans (if_pos rfl)).symm.trans after)
    exact keeps
  · intro keeps
    refine ⟨fun key apart => ?_, entry, expired, attached, (found _).trans (if_pos rfl), keeps⟩
    rw [found, if_neg apart, same]

end Session

/-! ## Requests -/

namespace Program

variable {models : String → Model} {program : Program} {number : Nat} {session : Session}
  {connection : Connection}

/-- Where an action that gives out nothing succeeds, its session is the one that the program has
afterwards. -/
theorem exists_of_perform {action : Action Unit} {good : Context → Prop}
    {bad : Interruption → Context → Prop} {reply : Reply}
    (here : program.sessions[number]? = some session)
    (ends : Ends action (program.contextOf session connection) (fun _ after => good after) bad)
    (ok : (program.perform number (program.contextOf session connection) action
      fun _ program => (.done, program)).outcome = .ok reply) :
    ∃ context, good context ∧
      (program.perform number (program.contextOf session connection) action
        fun _ program => (.done, program)).program.sessions[number]? = some context.session := by
  have inside := (List.getElem?_eq_some_iff.mp here).1
  unfold perform at ok ⊢
  unfold Ends at ends
  generalize action.run.run (program.contextOf session connection) = run at ends ok ⊢
  obtain ⟨_ | _, context⟩ := run
  · cases ok
  · exact ⟨context, ends, List.getElem?_set_self inside⟩

/-- The requests that expire all entries of a session when they succeed. -/
def ExpiresAll (session : Session) : Request → Prop
  | .expireAll | .rollback => True
  | .commit => session.config.expireOnCommit = true
  | _ => False

variable [Hashable Digest]

/-- A request that expires all entries changes no entry before. -/
theorem expiresAll_step {request : Request} {reply : Reply}
    (here : program.sessions[number]? = some session) (asked : ExpiresAll session request)
    (ok : (program.step number connection request).outcome = .ok reply) :
    ∃ middle : Session, middle.identities = session.identities ∧
      middle.keyIndices = session.keyIndices ∧
      (program.step number connection request).program.sessions[number]? =
        some middle.expireAll := by
  rw [step_of_session here] at ok ⊢
  have closed (sql : String) (next : Action Unit)
      (expires : ∀ context, (program.contextOf session connection).SameEntries context →
        Ends next context (fun _ after => after.session = context.session.expireAll)
          fun _ _ => True) :
      Ends (do Action.endTransaction sql; next) (program.contextOf session connection)
        (fun _ after => ∃ middle : Session, middle.identities = session.identities ∧
          middle.keyIndices = session.keyIndices ∧ after.session = middle.expireAll)
        fun _ _ => True := by
    refine ends_bind.mpr ((Action.endTransaction_ends sql _).mono ?_ fun _ _ _ => trivial)
    intro _ context same
    exact (expires context same).mono
      (fun _ after done => ⟨context.session, same.identities, same.keyIndices, done⟩)
      fun _ _ _ => trivial
  cases request with
  | expireAll =>
      have inside := (List.getElem?_eq_some_iff.mp here).1
      exact ⟨session, rfl, rfl, List.getElem?_set_self inside⟩
  | rollback =>
      have ends := closed "ROLLBACK" (Action.modifySession Session.expireAll)
        fun context _ => ends_modify.mpr rfl
      obtain ⟨context, ⟨middle, identities, keyIndices, expired⟩, stepped⟩ :=
        exists_of_perform here ends ok
      exact ⟨middle, identities, keyIndices, expired ▸ stepped⟩
  | commit =>
      have ends := closed "COMMIT" (do
          if (← Action.session).config.expireOnCommit then
            Action.modifySession Session.expireAll) (by
        intro context same
        rw [ends_bind, Action.ends_session, same.config,
          show (program.contextOf session connection).session.config.expireOnCommit = true
            from asked]
        exact ends_modify.mpr rfl)
      obtain ⟨context, ⟨middle, identities, keyIndices, expired⟩, stepped⟩ :=
        exists_of_perform here ends ok
      exact ⟨middle, identities, keyIndices, expired ▸ stepped⟩
  | _ => exact asked.elim

/-- A request that expires an instance has met its model before, and puts a change of its entry in
place of the entry. -/
theorem expire_step {held : Nat} {names : List String}
    (here : program.sessions[number]? = some session)
    (ok : (program.step number connection (.expire held names)).outcome = .ok .done) :
    ∃ inst entry indices, program.instances[held]? = some inst ∧
      session.attached? inst = some entry ∧ names.mapM inst.index = .ok indices ∧
      let met := session.meet inst.model
      let keyIndices := met.keyIndicesOf inst.model.table
      (program.step number connection (.expire held names)).program.sessions[number]? =
        some (met.withEntry inst.key (EntryChange.apply entry
          (if indices.isEmpty then .expireAll keyIndices else .expire indices keyIndices))) := by
  have inside := (List.getElem?_eq_some_iff.mp here).1
  rw [step_of_session here] at ok ⊢
  unfold runOn at ok ⊢
  dsimp only at ok ⊢
  cases there : program.instances[held]? with
  | none =>
      unfold performOn at ok
      rw [there] at ok
      cases ok
  | some inst =>
      obtain ⟨error, failed⟩ | ⟨indices, positions, ⟨error, failed⟩ | ⟨entry, attached, done⟩⟩ :=
        (program.contextOf session connection).session.expire_cases inst names
      · rw [performOn_of_instance there (Action.onInstance_eq failed)] at ok
        cases ok
      · rw [performOn_of_instance there (Action.onInstance_eq failed)] at ok
        cases ok
      · refine ⟨inst, entry, indices, rfl, ?_, positions, ?_⟩
        · rw [← Session.attached_eq_ok,
            Session.attached_congr inst (session.meet_identities inst.model).symm]
          exact attached
        · rw [performOn_of_instance there (Action.onInstance_eq done)]
          exact List.getElem?_set_self inside

omit [Hashable Digest] in
/-- The positions that names stand for. -/
theorem mem_positions_iff {inst : Instance} {names : List String} {indices : List Nat}
    (positions : names.mapM inst.index = .ok indices) (index : Nat) :
    index ∈ indices ↔ ∃ name ∈ names, inst.plan.index? name = some index := by
  have each := forall₂_of_mapM_eq_ok positions
  clear positions
  induction each with
  | nil => simp
  | @cons name position names indices here _ ih =>
      simp only [List.mem_cons, exists_eq_or_imp, Instance.index_eq_ok.mp here,
        Option.some.injEq, ih]
      exact or_congr_left eq_comm

/-- **When expiring keeps exactly the primary keys.** Requests that expire all entries do so
exactly when the positions remembered for the tables of the entries are right for all of them
that are not detached. The request that expires attributes of one instance does so exactly when
the positions remembered for its table are right for the named attributes of its entry. -/
theorem expiring_keeps_keys_iff (well : program.WellTyped models)
    (here : program.sessions[number]? = some session) (connection : Connection) :
    (∀ request, ExpiresAll session request →
      (program.step number connection request).outcome = .ok .done →
      ∃ after,
        (program.step number connection request).program.sessions[number]? = some after ∧
        (session.ExpiresAllButKeys after ↔
          ∀ key entry, session.identities.find? key = some entry → entry.state ≠ .detached →
            session.Remembers entry fun _ => True)) ∧
    ∀ held names, (program.step number connection (.expire held names)).outcome = .ok .done →
      ∃ inst entry after, program.instances[held]? = some inst ∧
        session.attached? inst = some entry ∧
        (program.step number connection (.expire held names)).program.sessions[number]? =
          some after ∧
        (session.ExpiresButKey after inst names ↔
          (session.meet inst.model).Remembers entry fun index =>
            names = [] ∨ ∃ name ∈ names, entry.model.entity.index? name = some index) := by
  constructor
  · intro request asked ok
    obtain ⟨middle, identities, keyIndices, stepped⟩ := expiresAll_step here asked ok
    exact ⟨middle.expireAll, stepped,
      (Session.expiresAllButKeys_congr identities keyIndices).trans session.expiresAllButKeys_iff⟩
  · intro held names ok
    obtain ⟨inst, entry, indices, there, attached, positions, stepped⟩ := expire_step here ok
    refine ⟨inst, entry, _, there, attached, stepped, ?_⟩
    have fits := well.instances inst (List.mem_of_getElem? there)
    have same : inst.model = entry.model :=
      fits.model_eq (well.entries session (List.mem_of_getElem? here) _ _
        (session.attached?_eq_some.mp attached).1)
    have empty : indices = [] ↔ names = [] := by
      rw [← List.length_eq_zero_iff, ← List.length_eq_zero_iff,
        (forall₂_of_mapM_eq_ok positions).length_eq]
    have named : (fun index => indices = [] ∨ index ∈ indices) = fun index =>
        names = [] ∨ ∃ name ∈ names, entry.model.entity.index? name = some index := by
      funext index
      rw [empty, mem_positions_iff positions, ← same]
      simp only [fits.suits.index?_eq]
    have exact := entry.expiring_keepsOwnKey_iff indices
      ((session.meet inst.model).keyIndicesOf inst.model.table)
    rw [Session.expiresButKey_iff attached (session.meet_identities inst.model), ← named, exact,
      Session.Remembers, ← same]

end Program

/-! ## Two models of the table of books -/

namespace Catalogue

/-- The only loaded book keeps its key when everything expires. -/
theorem bookshop_expires_but_key :
    ∃ before after, bookshop.sessions[0]? = some before ∧
      (bookshop.step 0 ⟨[], [], []⟩ .expireAll).program.sessions[0]? = some after ∧
      before.ExpiresAllButKeys after := by
  obtain ⟨after, stepped, exact⟩ :=
    (Program.expiring_keeps_keys_iff bookshop_wellTyped
      (show bookshop.sessions[0]? = some _ from rfl) ⟨[], [], []⟩).1 .expireAll trivial rfl
  refine ⟨_, after, rfl, stepped, exact.mpr ?_⟩
  intro key entry found _ index _ _
  obtain ⟨front, back, listed, -⟩ := List.lookup_eq_some_iff.mp found
  have member : (key, entry) ∈ front ++ (key, entry) :: back := by simp
  rw [← listed] at member
  obtain ⟨-, rfl⟩ := Prod.mk.inj (List.mem_singleton.mp member)
  exact Iff.rfl

/-- A row of a book as the lighter model has it. -/
def liteRow : Row := ⟨["title", "id"], [.text "Persuasion", .int 2]⟩

/-- The bookshop that has loaded another book through the lighter model, whose key is its second
attribute. -/
def mixedBookshop : Program :=
  (bookshop.step 0 ⟨[.ok [liteRow]], [], []⟩ (everything bookLite)).program

/-- The key positions of books are remembered for the table, so the lighter model loses its key
when everything expires, and keeps the title. -/
theorem expireAll_loses_key_of_lite :
    ∃ before after entry expired, mixedBookshop.sessions[0]? = some before ∧
      (mixedBookshop.step 0 ⟨[], [], []⟩ .expireAll).program.sessions[0]? = some after ∧
      before.identities.find? (Key.ofValues bookLite [.int 2]) = some entry ∧
      after.identities.find? (Key.ofValues bookLite [.int 2]) = some expired ∧
      expired.loaded.contains 0 = true ∧ expired.loaded.contains 1 = false ∧
      ¬ before.ExpiresAllButKeys after := by
  refine ⟨_, _, _, _, rfl, rfl, rfl, rfl, rfl, rfl, ?_⟩
  intro expires
  obtain ⟨expired, found, keeps⟩ :=
    (expires (Key.ofValues bookLite [.int 2]) _ rfl).2 (by decide)
  obtain rfl := Option.some.inj found
  have kept := (keeps.loaded 1).mpr ⟨rfl, fun _ => by decide⟩
  cases kept

end Catalogue

/-! ## Models whose keys agree -/

/-- What a session remembers for a table are the key positions of a model of the table, and there
is something for the table of every entry. -/
structure Session.HasMet (models : String → Model) (session : Session) : Prop where
  remembered : ∀ table positions, session.keyIndices.lookup table = some positions →
    ∃ model : Model, model.Typed models ∧ model.table = table ∧
      positions = model.entity.keyIndices
  entries : ∀ key entry, session.identities.find? key = some entry →
    (session.keyIndices.lookup entry.model.table).isSome

/-- What an event leaves remembered for a table was so before, or the event met the first model of
the table. -/
theorem Event.lookup_apply (context : Context) (event : Event) (table : String) :
    (event.apply context).session.keyIndices.lookup table =
        context.session.keyIndices.lookup table ∨
      ∃ model, event = .met model ∧ model.table = table ∧
        (event.apply context).session.keyIndices.lookup table = some model.entity.keyIndices := by
  have executed (sql : String) (inTransaction : Bool) :
      (execute sql inTransaction context).session.keyIndices = context.session.keyIndices := by
    unfold execute
    split <;> rfl
  cases event with
  | began => exact .inl (congrArg (·.lookup table) (executed _ _))
  | ended sql => exact .inl (congrArg (·.lookup table) (executed _ _))
  | met model =>
      have after := context.session.lookup_meet model table
      cases before : context.session.keyIndices.lookup table with
      | some positions =>
          rw [before, Option.some_or] at after
          exact .inl after
      | none =>
          rw [before, Option.none_or] at after
          by_cases same : table = model.table
          · exact .inr ⟨model, rfl, same.symm, after.trans (if_pos same)⟩
          · exact .inl (after.trans (if_neg same))
  | changed key change =>
      simp only [apply]
      split <;> exact .inl rfl
  | checked | queried | counted | created | expiredAll | detachedAll | issued => exact .inl rfl

namespace Program

variable [Hashable Digest] {models : String → Model} {program : Program} {request : Request}
  {past : List Event} {context : Context} {event : Event}

theorem Allows.hasMet (allowed : program.Allows models request past context event)
    (typed : request.Typed models) (instances : ∀ inst ∈ program.instances, inst.model.Typed models)
    (met : context.session.HasMet models) : (event.apply context).session.HasMet models where
  remembered := by
    intro table positions found
    rcases event.lookup_apply context table with same | ⟨model, rfl, named, first⟩
    · exact met.remembered table positions (same ▸ found)
    · refine ⟨model, ?_, named, Option.some.inj (found.symm.trans first)⟩
      cases allowed with
      | met which =>
          rcases which with loads | ⟨inst, held, rfl⟩
          · exact typed.loaded loads
          · exact instances inst held
  entries := by
    have keeps {table : String} (known : (context.session.keyIndices.lookup table).isSome) :
        ((event.apply context).session.keyIndices.lookup table).isSome := by
      rcases event.lookup_apply context table with same | ⟨model, -, -, first⟩
      · rwa [same]
      · rw [first]
        rfl
    refine Event.entries_apply (fun key entry there => keeps (met.entries key entry there)) ?_ ?_
    · rintro key model record row rfl
      cases allowed with
      | created _ _ _ known => exact keeps known
    · intro key entry change _ _ known
      rwa [EntryChange.apply_model]

/-- In every program reached by typed requests, sessions remember key positions of models of the
tables of all their entries. -/
theorem Reaches.hasMet {admits : Program → Nat → Connection → Request → Prop}
    {schema : Schema} {configs : List Config} (declared : schema.Typed models)
    (reached : Reaches admits (ofConfigs schema configs) program)
    (typed : ∀ {program number connection request},
      admits program number connection request → request.Typed models) :
    ∀ session ∈ program.sessions, session.HasMet models :=
  reached.sessions declared typed (·.HasMet models) (fun _ => ⟨nofun, nofun⟩)
    fun allowed typed instances _ met =>
      allowed.hasMet typed (fun inst held => (instances inst held).typed) met

/-- **Positions are remembered right where models agree.** If all models of one table have the
same key positions, then expiring keeps exactly the primary keys in every program reached. -/
theorem Reaches.remembers_of_agreeing {admits : Program → Nat → Connection → Request → Prop}
    {schema : Schema} {configs : List Config} (declared : schema.Typed models)
    (reached : Reaches admits (ofConfigs schema configs) program)
    (typed : ∀ {program number connection request},
      admits program number connection request → request.Typed models)
    (agree : ∀ left right : Model, left.Typed models → right.Typed models →
      left.table = right.table → left.entity.keyIndices = right.entity.keyIndices)
    {session : Session} (member : session ∈ program.sessions) {key : Key} {entry : Entry}
    (there : session.identities.find? key = some entry) (named : Nat → Prop) :
    session.Remembers entry named := by
  have met := reached.hasMet declared typed session member
  have fits := (reached.wellTyped declared typed).entries session member key entry there
  obtain ⟨positions, known⟩ := Option.isSome_iff_exists.mp (met.entries key entry there)
  obtain ⟨model, own, table, rfl⟩ := met.remembered _ _ known
  intro index _ _
  rw [Session.keyIndicesOf, known, agree model entry.model own fits.typed table]
  rfl

end Program

end LazyMapper
