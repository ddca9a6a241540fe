import LazyMapper.Proofs.Model.Storing
import LazyMapper.Proofs.Session.Reaching

/-!
# Loaded attributes are kept

What a live entry has loaded stays as it is until something is expired: no request but those that
expire the identity or load it again takes the attribute out of the loaded ones or changes its
value, whatever rows or errors the connection answers and whether the request succeeds
(`Program.step_keeps_loaded`).

Rows are written into an entry only where it has loaded nothing. This is a property of each change
(`Program.Writes.keeps_loaded`), and so of all events of a request.
-/

set_option autoImplicit false

namespace LazyMapper

/-- The request does not write the named attribute of the identity, and neither expires the
identity nor loads it again. -/
def Request.Spares (program : Program) (session : Session) (key : Key) (name : String) :
    Request → Prop
  | .set number other _ =>
    ∀ inst, program.instances[number]? = some inst → inst.key = key → other ≠ name
  | .expire number _ | .refresh number =>
    ∀ inst, program.instances[number]? = some inst → inst.key ≠ key
  | .expireAll | .rollback => False
  | .commit => session.config.expireOnCommit = false
  | _ => True

/-! ## Attributes that a row is written to -/

/-- Only attributes that are not loaded are fetched. -/
theorem LoadPlan.unloaded_of_mem_fetchIndices {plan : LoadPlan} {index position : Nat}
    {loaded : AttributeSet} (member : position ∈ plan.fetchIndices index loaded) :
    loaded.contains position = false := by
  have both := (List.mem_filter.mp member).2
  rw [Bool.and_eq_true] at both
  simpa using both.2

/-! ## Changes -/

/-- The entry has the attribute at a position loaded, with the given value. -/
structure Entry.Retains (entry : Entry) (model : Model) (handle index : Nat) (name : String)
    (value? : Option Value) : Prop where
  owner : entry.model = model
  handle : entry.handle = handle
  loaded : entry.loaded.contains index = true
  value : model.attribute? entry.record name = value?

namespace Entry.Retains

variable {entry : Entry} {model : Model} {handle index : Nat} {field : Field}
  {value? : Option Value}

/-- Assigning other attributes and loading more of them. -/
theorem assigning {assignments : List (String × Value)} {settle : Entry → Entry}
    (holds : entry.Retains model handle index field.name value?) (promise : model.ChangesOnlyNamed)
    (apart : field.name ∉ assignments.map Prod.fst)
    (settled : ∀ entry : Entry, entry.Retains model handle index field.name value? →
      (settle entry).Retains model handle index field.name value?) :
    (entry.assigning model assignments settle).Retains model handle index field.name value? := by
  refine Entry.assigning_induction
    (fun after => after.Retains model handle index field.name value?)
    ⟨holds.owner, holds.handle, holds.loaded, ?_⟩ fun _ => settled _
  exact (promise.assignAll apart entry.record).trans holds.value

end Entry.Retains

namespace Program

variable [Hashable Digest] {models : String → Model} {program : Program} {request : Request}
  {past : List Event} {session : Session} {key : Key} {entry : Entry} {model : Model}
  {handle index : Nat} {field : Field} {value? : Option Value} {change : EntryChange}

/-- **A change that spares an attribute keeps it**, when the attribute is loaded. -/
theorem Writes.keeps_loaded {configured : Configured}
    (writes : program.Writes request past session key entry change)
    (spares : request.Spares program session key field.name) (typed : request.Typed models)
    (instances : ∀ inst ∈ program.instances, inst.Fits models configured)
    (fits : entry.Fits models configured key) (valid : model.entity.Valid)
    (promise : model.ChangesOnlyNamed) (here : model.entity.fields[index]? = some field)
    (holds : entry.Retains model handle index field.name value?) :
    (change.apply entry).Retains model handle index field.name value? := by
  have own {number : Nat} {inst : Instance} (attached : program.Attaches number inst key entry) :
      inst.model = model ∧ inst.plan.Suits model.entity := by
    have same := (attached.model_eq instances fits).trans holds.owner
    exact ⟨same, same ▸ (instances inst (List.mem_of_getElem? attached.held)).suits⟩
  have loaded := holds.loaded
  cases writes with
  | @absorb other row record delivered made keyed live =>
      obtain rfl : other = model :=
        (fits.model_eq (typed.loaded delivered.loads) keyed).trans holds.owner
      simp only [EntryChange.apply]
      refine holds.assigning promise (fun member => ?_) fun after kept =>
        ⟨kept.owner, kept.handle, AttributeSet.contains_insertAll_of_contains _ kept.loaded,
          kept.value⟩
      obtain ⟨_, listed, named⟩ := List.mem_map.mp member
      obtain ⟨position, missing, other, there, rfl⟩ := Model.mem_assignments.mp listed
      obtain rfl := valid.index_unique there here named
      exact (Entry.mem_missingFrom.mp missing).2 loaded
  | fetch asked attached position unloaded answered =>
      obtain ⟨same, suits⟩ := own attached
      simp only [EntryChange.apply, same]
      refine holds.assigning promise (fun member => ?_) fun after kept =>
        ⟨kept.owner, kept.handle, AttributeSet.contains_insertAll_of_contains _ kept.loaded,
          kept.value⟩
      obtain ⟨_, listed, named⟩ := List.mem_map.mp member
      obtain ⟨position, fetched, planned, there, rfl⟩ := LoadPlan.mem_assignments.mp listed
      obtain ⟨other, there, named', -⟩ := suits.exists_field there
      obtain rfl := valid.index_unique there here (named'.trans named)
      rw [LoadPlan.unloaded_of_mem_fetchIndices fetched] at loaded
      cases loaded
  | assign asked attached position =>
      obtain ⟨same, -⟩ := own attached
      subst asked
      have apart := spares _ attached.held attached.key
      simp only [EntryChange.apply, same]
      exact holds.assigning promise (by simpa using Ne.symm apart) fun after kept =>
        ⟨kept.owner, kept.handle, (AttributeSet.contains_insert _ _ _).mpr (.inl kept.loaded),
          kept.value⟩
  | refresh asked attached answered =>
      subst asked
      exact absurd attached.key (spares _ attached.held)
  | expire asked attached positions given =>
      subst asked
      exact absurd attached.key (spares _ attached.held)
  | expireAll asked attached =>
      subst asked
      exact absurd attached.key (spares _ attached.held)
  | delete | detach => exact { holds with }

/-- An entry that rows are merged into stays live. -/
theorem Writes.keeps_live (writes : program.Writes request past session key entry change)
    (loads : request.loaded ≠ []) : (change.apply entry).state.isLive = true := by
  cases writes with
  | absorb delivered made keyed live =>
      exact Entry.assigning_induction (fun after => after.state.isLive = true) live
        fun _ _ => rfl
  | fetch asked | refresh asked | assign asked | expire asked | expireAll asked | detach asked =>
      subst asked
      exact absurd rfl loads
  | delete asked =>
      rcases asked with rfl | ⟨name, rfl⟩
      · exact absurd rfl loads
      · exact absurd rfl loads

/-! ## Requests -/

/-- The entry of a key has an attribute loaded, and is live as long as rows may be merged. -/
def Kept (request : Request) (model : Model) (handle index : Nat) (name : String)
    (value? : Option Value) (key : Key) (context : Context) : Prop :=
  ∃ entry, context.session.identities.find? key = some entry ∧
    entry.Retains model handle index name value? ∧
    (request.loaded ≠ [] → entry.state.isLive = true)

/-- An allowed event that spares an attribute keeps it. -/
theorem Allows.keeps_loaded {context : Context} {event : Event}
    (allowed : program.Allows models request past context event)
    (spares : request.Spares program context.session key field.name)
    (typed : request.Typed models)
    (instances : ∀ inst ∈ program.instances, inst.Fits models context.configured)
    (well : context.WellTyped models) (promise : model.ChangesOnlyNamed)
    (here : model.entity.fields[index]? = some field)
    (kept : Kept request model handle index field.name value? key context) :
    Kept request model handle index field.name value? key (event.apply context) := by
  obtain ⟨entry, there, holds, live⟩ := kept
  obtain same | ⟨other, record, row, rfl, -⟩ | ⟨old, change, found, changes, after⟩ :=
    event.find?_apply context key
  · exact ⟨entry, same.trans there, holds, live⟩
  · cases allowed with
    | created delivered loads checked met made keyed absent =>
        rw [there, Option.filter_some, if_pos (live (List.ne_nil_of_mem loads))] at absent
        cases absent
  · obtain rfl := Option.some.inj (there.symm.trans found)
    refine ⟨_, after, ?_⟩
    cases changes with
    | changed =>
        cases allowed with
        | changed found' writes =>
            obtain rfl := Option.some.inj (found'.symm.trans found)
            have fits := well.entries key _ found
            have valid : model.entity.Valid := by
              have valid := well.valid fits.typed fits.checked
              rwa [holds.owner] at valid
            exact ⟨writes.keeps_loaded spares typed instances fits valid promise here holds,
              writes.keeps_live⟩
    | expired state =>
        cases allowed with
        | expiredAll asked =>
            rcases asked with rfl | rfl | ⟨rfl, expiring⟩
            · exact spares.elim
            · exact spares.elim
            · rw [show context.session.config.expireOnCommit = false from spares] at expiring
              cases expiring
    | detached =>
        cases allowed with
        | detachedAll asked =>
            subst asked
            exact ⟨{ holds with }, fun loads => absurd rfl loads⟩

omit [Hashable Digest] in
/-- A request spares an attribute by the settings of its session, which never change. -/
theorem spares_congr {context context' : Session} {name : String}
    (same : context'.config = context.config)
    (spares : request.Spares program context key name) :
    request.Spares program context' key name := by
  cases request with
  | commit => exact (congrArg Config.expireOnCommit same).trans spares
  | _ => exact spares

/-- **A loaded attribute is kept until it is expired.** Whatever the request and the answers of
the connection, the entry of the key has its handle number still, and the attribute is loaded in
it with the value that it had, unless the request writes the attribute, or expires the identity or
loads it again. -/
theorem step_keeps_loaded (well : program.WellTyped models) (typed : request.Typed models)
    {tracked : Nat} (here : program.sessions[tracked]? = some session)
    (there : session.identities.find? key = some entry) (live : entry.state.isLive = true)
    (loaded : entry.loaded.contains index = true)
    (position : entry.model.entity.fields[index]? = some field)
    (promise : entry.model.ChangesOnlyNamed) (acting : Nat) (connection : Connection)
    (spares : acting = tracked → request.Spares program session key field.name) :
    ∃ session' after,
      (program.step acting connection request).program.sessions[tracked]? = some session' ∧
      session'.identities.find? key = some after ∧ after.handle = entry.handle ∧
      after.loaded.contains index = true ∧ after.model = entry.model ∧
      after.model.attribute? after.record field.name =
        entry.model.attribute? entry.record field.name := by
  cases active : program.sessions[acting]? with
  | none =>
      rw [step_of_no_session active]
      exact ⟨session, entry, here, there, rfl, loaded, rfl, rfl⟩
  | some current =>
      obtain ⟨events, context, history, leaves⟩ :=
        step_history well.schema typed active connection
      rw [leaves.sessions]
      by_cases same : acting = tracked
      · subst same
        obtain rfl := Option.some.inj (here.symm.trans active)
        have inside := (List.getElem?_eq_some_iff.mp here).1
        obtain ⟨-, -, -, after, found, holds, -⟩ := history.keeps (fun _ => True)
          (fun context => context.session.config = session.config ∧
            context.WellTyped models ∧ program.configured ⊆ context.configured ∧
            Kept request entry.model entry.handle index field.name
              (entry.model.attribute? entry.record field.name) key context)
          (fun _ _ => trivial)
          ⟨rfl, well.context here, List.Subset.refl _, entry, there, ⟨rfl, rfl, loaded, rfl⟩,
            fun _ => live⟩ (by
            rintro past context event allowed - - ⟨config, fits, keeps, kept⟩
            have instances inst member := (well.instances inst member).mono keeps
            exact ⟨(Event.apply_config _ _).trans config, allowed.wellTyped typed instances fits,
              List.Subset.trans keeps allowed.keeps_configured,
              allowed.keeps_loaded (spares_congr config (spares rfl)) typed instances fits promise
                position kept⟩)
        refine ⟨context.session, after, ?_, found, holds.handle, holds.loaded, holds.owner, ?_⟩
        · rw [List.getElem?_set_self inside]
        · rw [holds.owner, holds.value]
      · refine ⟨session, entry, ?_, there, rfl, loaded, rfl, rfl⟩
        rw [List.getElem?_set_ne same, here]

end Program

/-- The title of a book is kept when a row has another one. -/
theorem Catalogue.bookshop_keeps_title :
    ∃ session after,
      (bookshop.step 0 ⟨[.ok [bookRow "Persuasion"]], [], []⟩
        (everything book)).program.sessions[0]? = some session ∧
      session.identities.find? (Key.ofValues book [.int 1]) = some after ∧
      after.loaded.contains 1 = true ∧
      after.model.attribute? after.record "title" = some (.text "Emma") := by
  have title : bookEntity.fields[1]? = some (.named "title") := rfl
  obtain ⟨session, after, stepped, found, -, loaded, -, value⟩ :=
    Program.step_keeps_loaded bookshop_wellTyped (everything_typed book rfl)
      (show bookshop.sessions[0]? = some _ from rfl)
      (show (Session.identities _).find? (Key.ofValues book [.int 1]) = some _ from rfl) rfl rfl
      title Model.ofEntity_changesOnlyNamed 0 ⟨[.ok [bookRow "Persuasion"]], [], []⟩
      fun _ => trivial
  exact ⟨session, after, stepped, found, loaded, value⟩

end LazyMapper
