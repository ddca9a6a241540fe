import LazyMapper.Proofs.Session.Retention
import LazyMapper.Proofs.Session.Tracking

/-!
# Attachment ends for good

An instance is attached in one session at most, the one that produced it. There it stays attached
until its entry is expunged, or is found to be deleted and replaced by a row with the same key. Then
it is attached nowhere ever after, whatever is requested of whichever session: an entry that has the
handle number of the instance is the old one, and a new one has a new number
(`Program.attached_until_detached`).

What is requested through an instance that is attached nowhere is refused before anything is sent
(`Program.take_refuses`).
-/

set_option autoImplicit false

namespace LazyMapper

/-! ## Requests through detached instances -/

namespace Request

/-- Whether an instance has the attributes that a request through it names, and a written one is
outside the primary key. -/
def checkNames (inst : Instance) : Request → Except Error Unit
  | .load _ name => discard (inst.index name)
  | .set _ name _ => do
    let index ← inst.index name
    if (inst.plan.attributes[index]?).any PlannedAttribute.primaryKey then
      throw (.usage (.keyReassigned inst.model.table name))
  | .expire _ names => discard (names.mapM inst.index)
  | _ => .ok ()

/-- The fault of a request through a detached instance. What is wrong with the names comes first. -/
def refusal (request : Request) (inst : Instance) : Error :=
  match request.checkNames inst with
  | .error error => error
  | .ok () => .detached inst.model.table

end Request

/-- A request through an instance is refused. Nothing is sent, and no entry and no instance is
changed. -/
structure Program.Step.Refuses (step : Program.Step) (program : Program) (request : Request)
    (inst : Instance) : Prop where
  outcome : step.outcome = .error (.failed (request.refusal inst))
  calls : step.calls = []
  entries : step.program.sessions.map Session.identities =
    program.sessions.map Session.identities
  instances : step.program.instances = program.instances

theorem Session.contains_eq_false {session : Session} {inst : Instance} :
    session.contains inst = false ↔ session.attached? inst = none :=
  Option.isSome_eq_false_iff.trans Option.isNone_iff_eq_none

theorem Session.contains_eq_true {session : Session} {inst : Instance} :
    session.contains inst = true ↔ ∃ entry, session.attached? inst = some entry :=
  Option.isSome_iff_exists

namespace Action

variable {context : Context} {inst : Instance}

theorem attached_of_detached (detached : context.session.attached? inst = none) :
    context.session.attached inst = .error (.detached inst.model.table) := by
  rw [Session.attached, detached]

theorem loadAttribute_refused (detached : context.session.attached? inst = none) (number : Nat)
    (name : String) :
    loadAttribute inst name context =
      (.error (.failed ((Request.load number name).refusal inst)), inst, context) := by
  unfold loadAttribute Session.readRequest
  rw [attached_of_detached detached]
  dsimp only [Request.refusal, Request.checkNames]
  cases inst.index name <;> rfl

theorem setAttribute_refused (detached : context.session.attached? inst = none) (number : Nat)
    (name : String) (value : Value) :
    onInstance (·.setAttribute inst name value) context =
      (.error (.failed ((Request.set number name value).refusal inst)), inst, context) := by
  unfold onInstance Session.setAttribute
  dsimp only [Request.refusal, Request.checkNames]
  rw [attached_of_detached detached]
  cases inst.index name with
  | error error => rfl
  | ok index =>
      dsimp only [bind, Except.bind]
      cases (inst.plan.attributes[index]?).any PlannedAttribute.primaryKey <;> rfl

/-- The session has met the model of the instance, unless a name is unknown. -/
theorem expire_refused (detached : context.session.attached? inst = none) (number : Nat)
    (names : List String) :
    ∃ session, session.identities = context.session.identities ∧
      onInstance (·.expire inst names) context =
        (.error (.failed ((Request.expire number names).refusal inst)), inst,
          { context with session }) := by
  unfold onInstance Session.expire
  dsimp only [Request.refusal, Request.checkNames]
  cases names.mapM inst.index with
  | error error => exact ⟨context.session, rfl, rfl⟩
  | ok indices =>
      have met := context.session.meet_identities inst.model
      refine ⟨context.session.meet inst.model, met, ?_⟩
      dsimp only
      rw [Session.attached_congr inst met, attached_of_detached detached]
      rfl

theorem refresh_refused (detached : context.session.attached? inst = none) (number : Nat) :
    refresh inst context =
      (.error (.failed ((Request.refresh number).refusal inst)), inst, context) := by
  unfold refresh Session.refreshRequest
  rw [attached_of_detached detached]
  rfl

end Action

namespace Program

variable {models : String → Model} {program : Program} {session after : Session} {number held : Nat}
  {inst : Instance} {turn : Turn}

/-- An action on an instance that fails with the entries as they are. -/
theorem performOn_refuses {α : Type} {action : Instance → Action.OnInstance α} {request : Request}
    {queries : List (Outcome (List Row))} {executions : List (Outcome Unit)}
    (here : program.sessions[number]? = some session)
    (there : program.instances[held]? = some inst) (same : after.identities = session.identities)
    (fails : action inst (program.contextOf session ⟨queries, executions, []⟩) =
      (.error (.failed (request.refusal inst)), inst,
        program.contextOf after ⟨queries, executions, []⟩))
    (answer : α → Reply) :
    (program.performOn number (program.contextOf session ⟨queries, executions, []⟩) held action
      answer).Refuses program request inst := by
  rw [performOn_of_instance there fails]
  obtain ⟨inside, rfl⟩ := List.getElem?_eq_some_iff.mp here
  obtain ⟨inside', rfl⟩ := List.getElem?_eq_some_iff.mp there
  refine ⟨rfl, rfl, ?_, List.set_getElem_self inside'⟩
  dsimp only [withContext, contextOf]
  have listed : number < (program.sessions.map Session.identities).length := by simpa using inside
  rw [List.map_set, same, ← List.getElem_map Session.identities (h := listed),
    List.set_getElem_self]

/-- **A request through a detached instance is refused** with nothing sent and no entry changed. -/
theorem take_refuses [Hashable Digest] (here : program.sessions[turn.session]? = some session)
    (through : turn.request.through? = some held) (there : program.instances[held]? = some inst)
    (detached : session.attached? inst = none) :
    (program.take turn).Refuses program turn.request inst := by
  obtain ⟨number, queries, executions, request⟩ := turn
  have started : (program.contextOf session ⟨queries, executions, []⟩).session.attached? inst =
      none := detached
  unfold take
  rw [step_of_session here]
  unfold runOn
  cases request with
  | load _ name =>
      obtain rfl := Option.some.inj through
      exact performOn_refuses here there rfl (Action.loadAttribute_refused started _ name) _
  | set _ name value =>
      obtain rfl := Option.some.inj through
      exact performOn_refuses here there rfl (Action.setAttribute_refused started _ name value) _
  | expire _ names =>
      obtain rfl := Option.some.inj through
      obtain ⟨after, same, fails⟩ := Action.expire_refused started _ names
      exact performOn_refuses here there same fails _
  | refresh =>
      obtain rfl := Option.some.inj through
      exact performOn_refuses here there rfl (Action.refresh_refused started _) _
  | _ => cases through

end Program

/-! ## Detaching -/

/-- What detaches an instance from its entry: a request for that, or a new entry made of a row when
the row of the entry has been found to be gone. -/
inductive Request.Detaches (program : Program) (inst : Instance) (entry : Entry)
    (request : Request) : Prop where
  | expunged {number : Nat} {copy : Instance} (asked : request = .expunge number)
      (held : program.instances[number]? = some copy) (key : copy.key = inst.key)
      (handle : copy.handle = inst.handle)
  | expungedAll (asked : request = .expungeAll)
  | replaced (loads : request.loaded ≠ []) (deleted : entry.state = .deleted)

namespace Program

variable [Hashable Digest] {models : String → Model} {program : Program} {session : Session}
  {number : Nat} {inst : Instance} {entry : Entry} {turn : Turn}

/-- An event that does not detach an instance keeps it attached, and its entry live as long as rows
may be merged. -/
theorem Allows.keeps_attached {request : Request} {past : List Event} {context : Context}
    {event : Event} {now : Entry} (allowed : program.Allows models request past context event)
    (spared : ¬ request.Detaches program inst entry)
    (attached : context.session.attached? inst = some now)
    (live : request.loaded ≠ [] → now.state.isLive = true) :
    ∃ next, (event.apply context).session.attached? inst = some next ∧
      (request.loaded ≠ [] → next.state.isLive = true) := by
  obtain ⟨there, handle, state⟩ := context.session.attached?_eq_some.mp attached
  obtain same | ⟨model, record, row, rfl, -⟩ | ⟨old, change, found, changes, after⟩ :=
    event.find?_apply context inst.key
  · exact ⟨now, (Session.attached?_eq_some _).mpr ⟨same.trans there, handle, state⟩, live⟩
  · cases allowed with
    | created delivered loads checked met made keyed absent =>
        rw [there, Option.filter_some, if_pos (live (List.ne_nil_of_mem loads))] at absent
        cases absent
  · obtain rfl := Option.some.inj (there.symm.trans found)
    have other : change ≠ .detach := by
      rintro rfl
      cases changes with
      | changed =>
          cases allowed with
          | changed found writes =>
              cases writes with
              | detach asked attaches =>
                  obtain rfl := Option.some.inj (there.symm.trans found)
                  exact spared (.expunged asked attaches.held attaches.key
                    (attaches.handle.symm.trans handle))
      | detached =>
          cases allowed with
          | detachedAll asked => exact spared (.expungedAll asked)
    refine ⟨_, (Session.attached?_eq_some _).mpr ⟨after, (change.apply_handle now).trans handle,
      EntryChange.state_ne_detached state other⟩, fun loads => ?_⟩
    cases changes with
    | changed =>
        cases allowed with
        | changed found writes =>
            obtain rfl := Option.some.inj (there.symm.trans found)
            exact writes.keeps_live loads
    | expired =>
        cases allowed with
        | expiredAll asked =>
            rcases asked with rfl | rfl | ⟨rfl, -⟩
            all_goals exact absurd rfl loads
    | detached => exact absurd rfl other

/-- **An instance stays attached** in a session until a request of the session detaches it. -/
theorem WellTyped.take_keeps_attached (well : program.WellTyped models)
    (typed : turn.request.Typed models) (here : program.sessions[number]? = some session)
    (attached : session.attached? inst = some entry)
    (spared : turn.session = number → ¬ turn.request.Detaches program inst entry) :
    ∃ after, (program.take turn).program.sessions[number]? = some after ∧
      after.contains inst = true := by
  by_cases own : turn.session = number
  · subst own
    have kept := spared rfl
    obtain ⟨events, context, history, leaves⟩ := well.take_history typed here
    -- Rows replace entries that are not live, and no event of a request with rows deletes one.
    have live : turn.request.loaded ≠ [] → entry.state.isLive = true := by
      intro loads
      obtain ⟨-, -, state⟩ := session.attached?_eq_some.mp attached
      cases which : entry.state with
      | persistent | expired => rfl
      | deleted => exact absurd (.replaced loads which) kept
      | detached => exact absurd which state
    obtain ⟨now, found, -⟩ := history.keeps (fun _ => True) (fun context =>
      ∃ now, context.session.attached? inst = some now ∧
        (turn.request.loaded ≠ [] → now.state.isLive = true)) (fun _ _ => trivial)
      ⟨entry, attached, live⟩
      fun allowed _ _ ⟨now, found, live⟩ => allowed.keeps_attached kept found live
    refine ⟨context.session, ?_, Session.contains_eq_true.mpr ⟨now, found⟩⟩
    rw [leaves.sessions, List.getElem?_set_self (List.getElem?_eq_some_iff.mp here).1]
  · exact ⟨session, take_other here own, Session.contains_eq_true.mpr ⟨entry, attached⟩⟩

/-! ## Instances in runs -/

omit [Hashable Digest] in
/-- An instance attached anywhere is attached in the session that it belongs to. -/
theorem Tracks.owner_eq {owner : Nat} (tracks : program.Tracks owner inst)
    (here : program.sessions[number]? = some session)
    (attached : session.attached? inst = some entry) : number = owner := by
  obtain ⟨there, handle, -⟩ := session.attached?_eq_some.mp attached
  exact (tracks.entries (entryAt?_eq_some.mpr ⟨session, here, there⟩) handle).1

omit [Hashable Digest] in
/-- An instance that belongs to a session where it is detached is attached nowhere in later
programs. -/
theorem Tracks.stays_detached {after : Program} {owner : Nat} (tracks : program.Tracks owner inst)
    (here : program.sessions[owner]? = some session) (detached : session.attached? inst = none)
    (continues : program.Continues after) :
    ∀ later ∈ after.sessions, later.attached? inst = none := by
  intro later member
  obtain ⟨number, there⟩ := List.mem_iff_getElem?.mp member
  refine Option.eq_none_iff_forall_ne_some.mpr fun entry attached => ?_
  obtain ⟨found, handle, state⟩ := later.attached?_eq_some.mp attached
  -- By its handle number the entry is the old one, which is detached for good, or too new.
  obtain ⟨old, was, evolves⟩ | new :=
    continues.entries (entryAt?_eq_some.mpr ⟨later, there, found⟩)
  · obtain ⟨rfl, -⟩ := tracks.entries was (evolves.handle.symm.trans handle)
    obtain ⟨_, here', found'⟩ := entryAt?_eq_some.mp was
    obtain rfl := Option.some.inj (here.symm.trans here')
    have still : session.attached? inst = some old :=
      session.attached?_eq_some.mpr ⟨found', evolves.handle.symm.trans handle,
        fun before => state (evolves.detached before)⟩
    rw [detached] at still
    cases still
  · have used := tracks.used
    omega

/-- **Attachment ends for good, and is to one session.** Take any run of typed requests on any
number of sessions, and any instance. It is attached in no session but the one that produced it.
There it stays attached until it is expunged or its entry, found to be deleted, is replaced. Once it
is not attached there, it is attached in no session however the run goes on, and every request
through it is refused: it ends with the fault of a detached instance, unless a name in it is wrong,
and sends nothing and changes no entry. -/
theorem attached_until_detached {schema : Schema} (declared : schema.Typed models)
    {configs : List Config} {turns : List Turn}
    (typed : ∀ turn ∈ turns, turn.request.Typed models)
    (held : ((ofConfigs schema configs).after turns).instances[number]? = some inst) :
    let program := (ofConfigs schema configs).after turns
    ∃ owner session, ((ofConfigs schema configs).producers [] turns)[number]? = some owner ∧
      program.sessions[owner]? = some session ∧
      (∀ other session, program.sessions[other]? = some session → session.contains inst = true →
        other = owner) ∧
      (∀ entry, session.attached? inst = some entry → ∀ turn : Turn, turn.request.Typed models →
        ∀ after, (program.take turn).program.sessions[owner]? = some after →
          after.contains inst = false →
            turn.session = owner ∧ turn.request.Detaches program inst entry) ∧
      (session.contains inst = false → ∀ later : List Turn,
        (∀ turn ∈ later, turn.request.Typed models) →
          ∃ copy, (program.after later).instances[number]? = some copy ∧ copy.Resumes inst ∧
            (∀ session ∈ (program.after later).sessions, session.contains copy = false) ∧
            ∀ turn : Turn, turn.request.through? = some number →
              turn.session < (program.after later).sessions.length →
                ((program.after later).take turn).Refuses (program.after later) turn.request
                  copy) := by
  intro program
  have tracked : program.Tracked models _ := (tracked_ofConfigs declared configs).after typed
  obtain ⟨owner, produced, tracks⟩ := tracked.exists_owner held
  have here := List.getElem?_eq_getElem tracks.exists_session
  refine ⟨owner, _, produced, here, ?_, ?_, ?_⟩
  · intro other session there contained
    obtain ⟨entry, attached⟩ := Session.contains_eq_true.mp contained
    exact tracks.owner_eq there attached
  · intro entry attached turn typed after there detached
    by_contra spared
    obtain ⟨after', there', contained⟩ := tracked.well.take_keeps_attached typed here attached
      fun own detaches => spared ⟨own, detaches⟩
    obtain rfl := Option.some.inj (there'.symm.trans there)
    rw [detached] at contained
    cases contained
  · intro detached later typed
    obtain ⟨continues, keeps⟩ := tracked.after_continues typed
    obtain ⟨copy, held', resumes⟩ := keeps held
    have gone : ∀ session ∈ (program.after later).sessions, session.attached? copy = none := by
      intro session member
      rw [resumes.attached?_eq]
      exact tracks.stays_detached here (Session.contains_eq_false.mp detached) continues session
        member
    refine ⟨copy, held', resumes, fun session member => ?_, fun turn through inside => ?_⟩
    · exact Session.contains_eq_false.mpr (gone session member)
    · have there := List.getElem?_eq_getElem inside
      exact take_refuses there through held' (gone _ (List.mem_of_getElem? there))

end Program

/-- A book that was expunged stays detached when both sessions have loaded its row again. Writing
its title is refused, and naming an attribute that it does not have is the first thing found. -/
theorem Catalogue.bookshop_forgets_expunged :
    let loading (session : Nat) : Turn := ⟨session, [.ok [bookRow "Emma"]], [], everything book⟩
    let turns : List Turn := [loading 0, ⟨0, [], [], .expunge 0⟩]
    let program := (Program.ofConfigs schema [.default, .default]).after turns
    let later := program.after [loading 0, loading 1]
    ∃ copy, later.instances[0]? = some copy ∧
      (∀ session ∈ later.sessions, session.contains copy = false) ∧
      (later.take ⟨1, [], [], .set 0 "title" (.text "Persuasion")⟩).outcome =
        .error (.failed (.detached "books")) ∧
      (later.take ⟨0, [], [], .load 0 "publisher"⟩).outcome =
        .error (.failed (.loader (.unknownAttribute "books" "publisher"))) := by
  intro loading turns program later
  have known (session : Nat) : (loading session).request.Typed modelOf :=
    everything_typed book rfl
  have typed : ∀ turn ∈ turns, turn.request.Typed modelOf := by
    intro turn member
    simp only [turns, List.mem_cons, List.not_mem_nil, or_false] at member
    rcases member with rfl | rfl
    · exact known 0
    · trivial
  have expunged : (program.sessions[0]?).bind (fun session =>
      (program.instances[0]?).map session.contains) = some false := by decide +kernel
  obtain ⟨session, here, expunged⟩ := Option.bind_eq_some_iff.mp expunged
  obtain ⟨inst, held, detached⟩ := Option.map_eq_some_iff.mp expunged
  obtain ⟨owner, session', produced, here', -, -, refused⟩ :=
    Program.attached_until_detached schema_typed typed held
  obtain rfl : owner = 0 := by
    have first : ((Program.ofConfigs schema [.default, .default]).producers [] turns)[0]? =
        some 0 := by decide +kernel
    exact Option.some.inj (produced.symm.trans first)
  obtain rfl := Option.some.inj (here'.symm.trans here)
  obtain ⟨copy, held', -, gone, refuses⟩ := refused detached [loading 0, loading 1]
    fun turn member => by
      simp only [List.mem_cons, List.not_mem_nil, or_false] at member
      rcases member with rfl | rfl
      · exact known 0
      · exact known 1
  have two : later.sessions.length = 2 := by decide +kernel
  have refusals (request : Request) (error : Error)
      (ends : (later.instances[0]?).map request.refusal = some error) :
      request.refusal copy = error := by
    rw [show later.instances[0]? = some copy from held'] at ends
    exact Option.some.inj ends
  refine ⟨copy, held', gone, ?_, ?_⟩
  · have ended := (refuses ⟨1, [], [], .set 0 "title" (.text "Persuasion")⟩ rfl
      (show 1 < later.sessions.length by omega)).outcome
    rw [refusals _ (.detached "books") (by decide +kernel)] at ended
    exact ended
  · have ended := (refuses ⟨0, [], [], .load 0 "publisher"⟩ rfl
      (show 0 < later.sessions.length by omega)).outcome
    rw [refusals _ (.loader (.unknownAttribute "books" "publisher")) (by decide +kernel)] at ended
    exact ended

end LazyMapper
