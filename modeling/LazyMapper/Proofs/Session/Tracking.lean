import LazyMapper.Proofs.Session.Numbering
import LazyMapper.Proofs.Session.Transactions

/-!
# Instances and their entries

An instance is a copy of an entry: of the one that a row was merged into, of a live one that
answered a lookup by key, or of the one that the instance was attached to when it took a new copy.
The entry is known by its handle number afterwards. So in every later program it belongs to the
session that produced the instance, is found under the key of the instance, and is not behind the
copy (`Program.Tracks`). It does not matter how often the entry has changed in between, or whether
another one has replaced it.

The sessions that produced the instances are a property of the run (`Program.producers`), which the
instances themselves do not show.
-/

set_option autoImplicit false

namespace LazyMapper

/-! ## Copies of entries -/

/-- The instance is not ahead of the entry: its copy has no later version, and nothing loaded that
the entry has not loaded under the same version. -/
structure Instance.Trails (inst : Instance) (entry : Entry) : Prop where
  version : inst.version ≤ entry.version
  loaded : inst.version = entry.version → ∀ index ∈ inst.loaded, index ∈ entry.loaded

theorem Instance.trails_ofEntry (model : Model) (key : Key) (plan : LoadPlan) (entry : Entry) :
    (Instance.ofEntry model key plan entry).Trails entry :=
  ⟨Nat.le_refl _, fun _ _ member => member⟩

/-- An instance stays behind its entry when that changes. -/
theorem Instance.Trails.evolves {inst : Instance} {old entry : Entry} (trails : inst.Trails old)
    (evolves : old.Evolves entry) : inst.Trails entry where
  version := Nat.le_trans trails.version evolves.version
  loaded := by
    intro same index member
    have before := trails.version
    have behind := evolves.version
    exact evolves.loaded (by omega) index (trails.loaded (by omega) index member)

namespace Program

/-- The instance belongs to the session of a number: its entry, if there is one still, is there
under the key of the instance, and not behind the instance. -/
structure Tracks (program : Program) (owner : Nat) (inst : Instance) : Prop where
  exists_session : owner < program.sessions.length
  used : inst.handle < program.nextHandle
  entries : ∀ {number key entry}, program.entryAt? number key = some entry →
    entry.handle = inst.handle → number = owner ∧ key = inst.key ∧ inst.Trails entry

variable {models : String → Model} {program before after : Program} {request : Request}
  {owner other : Nat} {inst old : Instance}

/-- A copy of an entry belongs to the session of the entry. -/
theorem Numbered.tracks (numbered : program.Numbered) {entry : Entry}
    (there : program.entryAt? owner inst.key = some entry)
    (copy : inst = .ofEntry inst.model inst.key inst.plan entry) : program.Tracks owner inst where
  exists_session := by
    obtain ⟨session, here, -⟩ := entryAt?_eq_some.mp there
    exact (List.getElem?_eq_some_iff.mp here).1
  used := by
    rw [copy]
    exact numbered.below there
  entries := by
    intro number key found there' same
    rw [copy] at same
    obtain ⟨rfl, rfl⟩ := numbered.apart there' there same
    obtain rfl := Option.some.inj (there'.symm.trans there)
    refine ⟨rfl, rfl, ?_⟩
    rw [copy]
    exact Instance.trails_ofEntry _ _ _ _

namespace Tracks

/-- An instance belongs to its session for good. -/
theorem continues (tracks : before.Tracks owner inst) (continues : before.Continues after) :
    after.Tracks owner inst where
  exists_session := continues.length ▸ tracks.exists_session
  used := Nat.lt_of_lt_of_le tracks.used continues.used
  entries := by
    intro number key entry there same
    obtain ⟨old, was, evolves⟩ | new := continues.entries there
    · obtain ⟨here, keyed, trails⟩ := tracks.entries was (evolves.handle.symm.trans same)
      exact ⟨here, keyed, trails.evolves evolves⟩
    · have used := tracks.used
      omega

/-- An instance that has taken a new copy of its entry belongs to the session that it did. -/
theorem resumes (tracks : program.Tracks owner old) (resumes : inst.Resumes old)
    (copied : program.Tracks other inst) : program.Tracks owner inst where
  exists_session := tracks.exists_session
  used := copied.used
  entries := fun there same =>
    have ⟨here, keyed, _⟩ := tracks.entries there (same.trans resumes.handle)
    ⟨here, keyed.trans resumes.key.symm, (copied.entries there same).2.2⟩

end Tracks

/-! ## Requests -/

/-- Nothing but the instances is different after the context has been put back. -/
theorem Step.Leaves.continues {step : Step} {number : Nat} {events : List Event}
    {context : Context} (leaves : step.Leaves program request number events context) :
    (program.withContext number context).Continues step.program := by
  rw [leaves.program_eq]
  exact ⟨Nat.le_refl _, rfl, fun there => .inl ⟨_, there, .refl _⟩⟩

variable [Hashable Digest]

/-- **An instance that a request issues belongs to the session of the request.** -/
theorem Numbered.tracks_issued {step : Step} {number : Nat} {session : Session}
    {connection : Connection} {events : List Event} {context : Context}
    (numbered : program.Numbered) (here : program.sessions[number]? = some session)
    (history : History (program.Allows models request) []
      (program.contextOf session connection) events context)
    (leaves : step.Leaves program request number events context)
    (issued : .issued inst ∈ events) : step.program.Tracks number inst := by
  -- The program of the moment at which the instance takes its copy.
  obtain ⟨front, back, middle, rfl, earlier, allowed, later⟩ := history.exists_of_mem issued
  obtain ⟨apart, -⟩ := numbered.history here earlier
  have inside := (List.getElem?_eq_some_iff.mp here).1
  have current : (program.withContext number middle).sessions[number]? = some middle.session :=
    List.getElem?_set_self inside
  have taken : (program.withContext number middle).Tracks number inst := by
    cases allowed with
    | issued there copy => exact apart.tracks (entryAt?_eq_some.mpr ⟨_, current, there⟩) copy
  have rest : History (program.Allows models request) _
      ((program.withContext number middle).contextOf middle.session middle.connection) back
      context := later
  have behind := (apart.history current rest).2
  rw [show (program.withContext number middle).withContext number context =
    program.withContext number context by simp only [withContext, List.set_set]] at behind
  exact (taken.continues behind).continues leaves.continues

/-- A copy of an instance is held behind the others, and nothing else is done. -/
theorem step_clone (program : Program) (number copied : Nat) (connection : Connection) :
    (program.step number connection (.clone copied)).program = program ∨
      ∃ inst, program.instances[copied]? = some inst ∧
        (program.step number connection (.clone copied)).program = program.holding [inst] := by
  unfold step runOn
  cases program.sessions[number]? with
  | none => exact .inl rfl
  | some session =>
      dsimp only
      cases there : program.instances[copied]? with
      | none => exact .inl rfl
      | some inst => exact .inr ⟨inst, rfl, rfl⟩

end Program

/-! ## Producers -/

/-- The session that produces the instances of a turn, given those that have produced the others. A
copy of an instance is from where that is. -/
def Turn.producer (turn : Turn) (owners : List Nat) : Nat :=
  match turn.request with
  | .clone number => owners.getD number turn.session
  | _ => turn.session

namespace Program

variable [Hashable Digest]

/-- The sessions that have produced the instances of a program after a turn, by their numbers, given
those before it. -/
def produced (program : Program) (owners : List Nat) (turn : Turn) : List Nat :=
  let made := (program.take turn).program.instances.length - program.instances.length
  owners ++ List.replicate made (turn.producer owners)

/-- The sessions that have produced the instances of a program after a run. -/
def producers (program : Program) (owners : List Nat) : List Turn → List Nat
  | [] => owners
  | turn :: rest => (program.take turn).program.producers (program.produced owners turn) rest

/-- The program is well typed, and every instance belongs to the session that produced it. -/
structure Tracked (models : String → Model) (program : Program) (owners : List Nat) : Prop where
  well : program.WellTyped models
  numbered : program.Numbered
  length : owners.length = program.instances.length
  tracks : ∀ {number owner : Nat} {inst : Instance}, owners[number]? = some owner →
    program.instances[number]? = some inst → program.Tracks owner inst

variable {models : String → Model} {program : Program} {owners : List Nat} {number : Nat}
  {inst : Instance} {turn : Turn}

omit [Hashable Digest] in
theorem Tracked.exists_owner (tracked : program.Tracked models owners)
    (held : program.instances[number]? = some inst) :
    ∃ owner, owners[number]? = some owner ∧ program.Tracks owner inst := by
  have inside : number < owners.length :=
    tracked.length ▸ (List.getElem?_eq_some_iff.mp held).1
  have listed := List.getElem?_eq_getElem inside
  exact ⟨_, listed, tracked.tracks listed held⟩

/-- A turn of a session has a history of allowed events. -/
theorem WellTyped.take_history (well : program.WellTyped models)
    (typed : turn.request.Typed models) {session : Session}
    (here : program.sessions[turn.session]? = some session) :
    ∃ events context, History (program.Allows models turn.request) []
        (program.contextOf session ⟨turn.queries, turn.executions, []⟩) events context ∧
      (program.take turn).Leaves program turn.request turn.session events context :=
  step_history well.schema typed here _

theorem take_of_no_session (missing : program.sessions[turn.session]? = none) :
    program.take turn = ⟨.ok .unknown, [], program⟩ :=
  step_of_no_session missing _ _

/-- A typed request leaves the instances held where they are, and with the entries that they had. -/
theorem WellTyped.take_resumes (well : program.WellTyped models)
    (typed : turn.request.Typed models) (held : program.instances[number]? = some inst) :
    ∃ copy, (program.take turn).program.instances[number]? = some copy ∧ copy.Resumes inst := by
  cases here : program.sessions[turn.session]? with
  | none =>
      rw [take_of_no_session here]
      exact ⟨inst, held, .refl inst⟩
  | some session =>
      obtain ⟨events, context, -, leaves⟩ := well.take_history typed here
      obtain ⟨copy, there, same | ⟨resumes, -⟩⟩ := leaves.instances.kept held
      · exact ⟨copy, there, same ▸ .refl copy⟩
      · exact ⟨copy, there, resumes⟩

namespace Tracked

theorem take_continues (tracked : program.Tracked models owners)
    (typed : turn.request.Typed models) :
    (program.take turn).program.Numbered ∧ program.Continues (program.take turn).program :=
  tracked.numbered.step tracked.well typed _ _

/-- An instance from before a typed request belongs to the session that it did. -/
theorem take_kept (tracked : program.Tracked models owners) (typed : turn.request.Typed models)
    {owner : Nat} (listed : owners[number]? = some owner)
    (there : (program.take turn).program.instances[number]? = some inst) :
    (program.take turn).program.Tracks owner inst := by
  have inside := tracked.length ▸ (List.getElem?_eq_some_iff.mp listed).1
  have held := List.getElem?_eq_getElem inside
  have before := tracked.tracks listed held
  cases here : program.sessions[turn.session]? with
  | none =>
      rw [take_of_no_session here] at there ⊢
      exact tracked.tracks listed there
  | some session =>
      obtain ⟨events, context, history, leaves⟩ := tracked.well.take_history typed here
      have after := before.continues (tracked.take_continues typed).2
      obtain ⟨copy, there', same⟩ := leaves.instances.kept held
      obtain rfl := Option.some.inj (there'.symm.trans there)
      rcases same with same | ⟨resumes, issued⟩
      · rw [same]
        exact after
      · exact after.resumes resumes (tracked.numbered.tracks_issued here history leaves issued)

/-- An instance that a typed request adds belongs to the producer of the turn. -/
theorem take_made (tracked : program.Tracked models owners) (typed : turn.request.Typed models)
    (there : (program.take turn).program.instances[number]? = some inst)
    (behind : program.instances.length ≤ number) :
    (program.take turn).program.Tracks (turn.producer owners) inst := by
  have absurd_held {goal : Prop} (held : program.instances[number]? = some inst) : goal :=
    absurd (List.getElem?_eq_some_iff.mp held).1 (Nat.not_lt.mpr behind)
  by_cases copies : ∃ copied, turn.request = .clone copied
  · obtain ⟨copied, asked⟩ := copies
    have continues := (tracked.take_continues typed).2
    unfold Program.take at there continues ⊢
    simp only [Turn.producer, asked] at there continues ⊢
    obtain same | ⟨old, held, same⟩ := program.step_clone turn.session copied
      ⟨turn.queries, turn.executions, []⟩
    · rw [same] at there
      exact absurd_held there
    · -- The copy is the instance itself, so it has the owner of that one.
      obtain ⟨owner, listed, tracks⟩ := tracked.exists_owner held
      rw [same, holding, List.getElem?_append_right behind] at there
      obtain rfl := List.mem_singleton.mp (List.mem_of_getElem? there)
      rw [List.getD_eq_getElem?_getD, listed]
      exact tracks.continues continues
  · cases here : program.sessions[turn.session]? with
    | none =>
        rw [take_of_no_session here] at there
        exact absurd_held there
    | some session =>
        obtain ⟨events, context, history, leaves⟩ := tracked.well.take_history typed here
        have producer : turn.producer owners = turn.session := by
          unfold Turn.producer
          split
          · rename_i copied asked
            exact absurd ⟨copied, asked⟩ copies
          · rfl
        rw [producer]
        rcases leaves.instances.made there behind with issued | ⟨copied, asked, -⟩
        · exact tracked.numbered.tracks_issued here history leaves issued
        · exact absurd ⟨copied, asked⟩ copies

/-- **A typed request keeps every instance with the session that produced it.** -/
theorem take (tracked : program.Tracked models owners) (typed : turn.request.Typed models) :
    (program.take turn).program.Tracked models (program.produced owners turn) where
  well := tracked.well.step typed _ _
  numbered := (tracked.take_continues typed).1
  length := by
    have kept : program.instances.length ≤ (program.take turn).program.instances.length := by
      by_contra fewer
      have inside : (program.take turn).program.instances.length < program.instances.length := by
        omega
      obtain ⟨copy, there, -⟩ :=
        tracked.well.take_resumes typed (List.getElem?_eq_getElem inside)
      exact Nat.lt_irrefl _ (List.getElem?_eq_some_iff.mp there).1
    rw [produced, List.length_append, List.length_replicate, tracked.length]
    omega
  tracks := by
    intro number owner inst listed there
    rw [produced] at listed
    by_cases inside : number < owners.length
    · rw [List.getElem?_append_left inside] at listed
      exact tracked.take_kept typed listed there
    · rw [List.getElem?_append_right (Nat.not_lt.mp inside)] at listed
      obtain rfl := List.eq_of_mem_replicate (List.mem_of_getElem? listed)
      exact tracked.take_made typed there (tracked.length ▸ Nat.not_lt.mp inside)

/-- **A run of any length keeps every instance with the session that produced it.** -/
theorem after (tracked : program.Tracked models owners) {turns : List Turn}
    (typed : ∀ turn ∈ turns, turn.request.Typed models) :
    (program.after turns).Tracked models (program.producers owners turns) := by
  induction turns generalizing program owners with
  | nil => exact tracked
  | cons turn rest ih =>
      exact ih (tracked.take (typed turn List.mem_cons_self))
        fun later member => typed later (List.mem_cons_of_mem _ member)

/-- A run continues the entries, and leaves the instances held where they are. -/
theorem after_continues (tracked : program.Tracked models owners) {turns : List Turn}
    (typed : ∀ turn ∈ turns, turn.request.Typed models) :
    program.Continues (program.after turns) ∧
      ∀ {number : Nat} {inst : Instance}, program.instances[number]? = some inst →
        ∃ copy, (program.after turns).instances[number]? = some copy ∧ copy.Resumes inst := by
  induction turns generalizing program owners with
  | nil => exact ⟨.refl program, fun {_ inst} held => ⟨inst, held, .refl inst⟩⟩
  | cons turn rest ih =>
      have first := typed turn List.mem_cons_self
      obtain ⟨continues, keeps⟩ := ih (tracked.take first)
        fun later member => typed later (List.mem_cons_of_mem _ member)
      refine ⟨(tracked.take_continues first).2.trans continues, fun held => ?_⟩
      obtain ⟨middle, there, resumes⟩ := tracked.well.take_resumes first held
      obtain ⟨copy, found, resumes'⟩ := keeps there
      exact ⟨copy, found, resumes'.trans resumes⟩

end Tracked

omit [Hashable Digest] in
theorem tracked_ofConfigs {schema : Schema} (declared : schema.Typed models)
    (configs : List Config) : (ofConfigs schema configs).Tracked models [] where
  well := wellTyped_ofConfigs declared configs
  numbered := numbered_ofConfigs schema configs
  length := rfl
  tracks := nofun

end Program

end LazyMapper
