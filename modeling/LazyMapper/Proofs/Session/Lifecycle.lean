import LazyMapper.Proofs.Session.Advancing

/-!
# The lifecycle of an entry

A turn makes one thing of an entry at most (`Program.take_entryAt`): it leaves the state of the
entry, moves the entry on, or replaces it. Handle numbers are never used again, so an entry with the
number of an earlier one is what a run has made of that one without replacing it. By induction on
the run, its state has gone along the moves of the turns of its session (`Program.Passes`).
-/

set_option autoImplicit false

namespace LazyMapper

namespace Program

variable [Hashable Digest] {program : Program}

/-- A turn makes one thing of an entry, and nothing if it is of another session. -/
theorem take_entryAt {number : Nat} {key : Key} {old : Entry} (turn : Turn)
    (there : program.entryAt? number key = some old) :
    ∃ next, (program.take turn).program.entryAt? number key = some next ∧
      (next.handle = old.handle ∧
          (next.state = old.state ∨ turn.session = number ∧ program.Moves turn key old next.state) ∨
        turn.session = number ∧ program.Replaces turn key old next) := by
  obtain ⟨session, here, found⟩ := entryAt?_eq_some.mp there
  by_cases own : turn.session = number
  · subst own
    obtain ⟨after, here', advance⟩ := take_advances here
    obtain ⟨next, found', advances⟩ := advance key old found
    refine ⟨next, entryAt?_eq_some.mpr ⟨after, here', found'⟩, ?_⟩
    cases advances with
    | stays handle state => exact .inl ⟨handle, .inl state⟩
    | moves handle moved => exact .inl ⟨handle, .inr ⟨rfl, moved⟩⟩
    | replaced replaces => exact .inr ⟨rfl, replaces⟩
  · exact ⟨old, entryAt?_eq_some.mpr ⟨session, take_other here own, found⟩, .inl ⟨rfl, .inl rfl⟩⟩

/-! ## Runs -/

/-- A run takes the entry of a key from one to another, with one handle number. Every turn leaves it
in its state or, if it is of its session, moves it on. -/
inductive Passes (number : Nat) (key : Key) : Program → List Turn → Entry → Entry → Prop where
  | done (program : Program) (entry : Entry) : Passes number key program [] entry entry
  | turn {program : Program} {turn : Turn} {rest : List Turn} {old middle last : Entry}
      (there : (program.take turn).program.entryAt? number key = some middle)
      (handle : middle.handle = old.handle)
      (state : middle.state = old.state ∨
        turn.session = number ∧ program.Moves turn key old middle.state)
      (later : Passes number key (program.take turn).program rest middle last) :
      Passes number key program (turn :: rest) old last

variable {models : String → Model} {owners : List Nat} {number : Nat} {key : Key}
  {old last : Entry} {turns : List Turn}

theorem Passes.detached (passes : Passes number key program turns old last)
    (still : old.state = .detached) : last.state = .detached := by
  induction passes with
  | done => exact still
  | turn _ _ state _ ih =>
      obtain same | ⟨-, moved⟩ := state
      · exact ih (same.trans still)
      · exact (moved.ne_detached still).elim

/-- An entry with the handle number of an earlier one is what a run has made of that one. -/
theorem Tracked.passes (tracked : program.Tracked models owners)
    (typed : ∀ turn ∈ turns, turn.request.Typed models)
    (there : program.entryAt? number key = some old) {number' : Nat} {key' : Key}
    (found : (program.after turns).entryAt? number' key' = some last)
    (same : last.handle = old.handle) :
    number' = number ∧ key' = key ∧ Passes number key program turns old last := by
  induction turns generalizing program owners old with
  | nil =>
      obtain ⟨rfl, rfl⟩ := tracked.numbered.apart found there same
      obtain rfl := Option.some.inj (there.symm.trans found)
      exact ⟨rfl, rfl, .done program old⟩
  | cons turn rest ih =>
      have first := typed turn List.mem_cons_self
      have later : ∀ turn ∈ rest, turn.request.Typed models :=
        fun turn member => typed turn (List.mem_cons_of_mem _ member)
      obtain ⟨next, there', made⟩ := take_entryAt turn there
      have continues := (tracked.take_continues first).2
      have below := tracked.numbered.below there
      -- The last entry goes back to one before the turn with its number, which is the old one.
      obtain ⟨middle, between, evolves⟩ | new :=
        ((tracked.take first).after_continues later).1.entries found
      · have handle : middle.handle = old.handle := evolves.handle.symm.trans same
        obtain ⟨origin, was, earlier⟩ | new := continues.entries between
        · obtain ⟨rfl, rfl⟩ :=
            tracked.numbered.apart was there (earlier.handle.symm.trans handle)
          obtain rfl := Option.some.inj (between.symm.trans there')
          obtain ⟨-, -, passes⟩ := ih (tracked.take first) later there' found evolves.handle
          obtain ⟨-, state⟩ | ⟨-, replaces⟩ := made
          · exact ⟨rfl, rfl, .turn there' handle state passes⟩
          · have new := replaces.handle
            omega
        · omega
      · have used := continues.used
        omega

/-- **The state of an entry follows its lifecycle.** Take any run of typed requests on any number of
sessions, and any entry. A turn makes one thing of it at most. If it keeps its handle number, it
stays in its state or goes on by a move of the turn, which is then one of its session. Otherwise it
was deleted or detached, and a row of its key that the turn has merged has replaced it. However the
run goes on, an entry with its number is under its key in its session, and every turn in between has
left it in its state or moved it on; so it is still detached if it ever was. -/
theorem entry_follows_lifecycle {schema : Schema} (declared : schema.Typed models)
    {configs : List Config} (typed : ∀ turn ∈ turns, turn.request.Typed models)
    (there : ((ofConfigs schema configs).after turns).entryAt? number key = some old) :
    let program := (ofConfigs schema configs).after turns
    (∀ turn : Turn, ∃ next, (program.take turn).program.entryAt? number key = some next ∧
      (next.handle = old.handle ∧
          (next.state = old.state ∨ turn.session = number ∧ program.Moves turn key old next.state) ∨
        next.handle ≠ old.handle ∧ turn.session = number ∧
          program.Replaces turn key old next)) ∧
    ∀ later : List Turn, (∀ turn ∈ later, turn.request.Typed models) → ∀ number' key' last,
      (program.after later).entryAt? number' key' = some last → last.handle = old.handle →
        number' = number ∧ key' = key ∧ Passes number key program later old last ∧
          (old.state = .detached → last.state = .detached) := by
  intro program
  have tracked : program.Tracked models _ := (tracked_ofConfigs declared configs).after typed
  refine ⟨fun turn => ?_, fun later typed number' key' last found same => ?_⟩
  · obtain ⟨next, there', kept | ⟨own, replaces⟩⟩ := take_entryAt turn there
    · exact ⟨next, there', .inl kept⟩
    · have below : old.handle < program.nextHandle := tracked.numbered.below there
      have new : program.nextHandle ≤ next.handle := replaces.handle
      exact ⟨next, there', .inr ⟨by omega, own, replaces⟩⟩
  · obtain ⟨session, under, passes⟩ := tracked.passes typed there found same
    exact ⟨session, under, passes, passes.detached⟩

end Program

namespace Catalogue

/-- A book that was found and expired, then gone, found again and expunged at last, with one handle
number. When its row is merged once more, there is a new entry. -/
theorem bookshop_passes_states :
    let key := Key.ofValues book [.int 1]
    let finds (request : Request) : Turn := ⟨0, [.ok [bookRow "Emma"]], [], request⟩
    let turns : List Turn := [finds (everything book)]
    let later : List Turn := [⟨0, [], [], .expireAll⟩, ⟨0, [], [], .refresh 0⟩,
      finds (.refresh 0), ⟨0, [], [], .expunge 0⟩]
    let program := (Program.ofConfigs schema [.default]).after turns
    ∃ old last, program.entryAt? 0 key = some old ∧
      (program.after later).entryAt? 0 key = some last ∧
      (old.state, last.state) = (.persistent, .detached) ∧
      Program.Passes 0 key program later old last ∧
      ∃ next, ((program.after later).take (finds (everything book))).program.entryAt? 0 key =
          some next ∧
        (program.after later).Replaces (finds (everything book)) key last next := by
  intro key finds turns later program
  have typed : ∀ turn ∈ turns, turn.request.Typed modelOf :=
    List.forall_mem_singleton.mpr (everything_typed book rfl)
  have typed' : ∀ turn ∈ later, turn.request.Typed modelOf := by
    simp only [later, List.forall_mem_cons]
    exact ⟨trivial, trivial, trivial, trivial, nofun⟩
  have before : (program.entryAt? 0 key).map (fun entry => (entry.state, entry.handle)) =
      some (.persistent, 1) := by decide +kernel
  have after : ((program.after later).entryAt? 0 key).map (fun entry =>
      (entry.state, entry.handle)) = some (.detached, 1) := by decide +kernel
  have new : (((program.after later).take (finds (everything book))).program.entryAt? 0 key).map
      Entry.handle = some 2 := by decide +kernel
  obtain ⟨old, there, first⟩ := Option.map_eq_some_iff.mp before
  obtain ⟨last, found, second⟩ := Option.map_eq_some_iff.mp after
  obtain ⟨state, handle⟩ := Prod.mk.inj first
  obtain ⟨state', handle'⟩ := Prod.mk.inj second
  obtain ⟨-, followed⟩ := Program.entry_follows_lifecycle schema_typed typed there
  obtain ⟨-, -, passes, -⟩ := followed later typed' 0 key last found (handle'.trans handle.symm)
  have joined : (Program.ofConfigs schema [.default]).after (turns ++ later) =
      program.after later := Program.after_append _ _ _
  obtain ⟨turned, -⟩ := Program.entry_follows_lifecycle schema_typed
    (List.forall_mem_append.mpr ⟨typed, typed'⟩)
    (show ((Program.ofConfigs schema [.default]).after (turns ++ later)).entryAt? 0 key = some last
      by rw [joined]; exact found)
  rw [joined] at turned
  refine ⟨old, last, there, found, by rw [state, state'], passes, ?_⟩
  obtain ⟨next, there', ⟨same, -⟩ | ⟨-, -, replaces⟩⟩ := turned (finds (everything book))
  · rw [show Program.entryAt? _ 0 key = some next from there', Option.map_some, same,
      handle'] at new
    cases new
  · exact ⟨next, there', replaces⟩

end Catalogue

end LazyMapper
