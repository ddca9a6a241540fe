import LazyMapper.Proofs.Model.Storing
import LazyMapper.Proofs.Session.Reaching

/-!
# Records of entries

The record of every entry is one that the model of the entry makes: it was made of a row, and
changed only by assigning attributes (`Program.Allows.makes`). So what a model promises of such
records holds of all entries of the programs that typed requests lead to
(`Program.Reaches.makes`).
-/

set_option autoImplicit false

namespace LazyMapper

/-- The record of the entry is one that its model makes. -/
def Entry.IsMade (entry : Entry) : Prop := entry.model.Makes entry.record

/-- The records of all entries of a session are made by their models. -/
def Session.Makes (session : Session) : Prop :=
  ∀ key entry, session.identities.find? key = some entry → entry.IsMade

theorem Entry.IsMade.assigning {entry : Entry} {model : Model}
    {assignments : List (String × Value)} {settle : Entry → Entry} (made : entry.IsMade)
    (same : model = entry.model) (keeps : ∀ after, (settle after).record = after.record)
    (keeps' : ∀ after, (settle after).model = after.model) :
    (entry.assigning model assignments settle).IsMade := by
  obtain rfl := same
  have assigned : entry.model.Makes (entry.model.assignAll entry.record assignments).1 :=
    Model.Makes.assignAll made assignments
  refine Entry.assigning_induction Entry.IsMade assigned fun _ _ => ?_
  rw [IsMade, keeps, keeps']
  exact assigned

namespace Program

variable [Hashable Digest] {models : String → Model} {program : Program} {request : Request}
  {past : List Event}

/-- A change that a request may cause keeps the record of an entry made by its model. -/
theorem Writes.makes {session : Session} {key : Key} {entry : Entry} {change : EntryChange}
    {configured : Configured} (writes : program.Writes request past session key entry change)
    (typed : request.Typed models)
    (instances : ∀ inst ∈ program.instances, inst.Fits models configured)
    (fits : entry.Fits models configured key) (made : entry.IsMade) :
    (change.apply entry).IsMade := by
  cases writes with
  | absorb delivered from_row keyed live =>
      have same := fits.model_eq (typed.loaded delivered.loads) keyed
      exact made.assigning same (fun _ => rfl) fun _ => rfl
  | fetch _ attached | refresh _ attached | assign _ attached =>
      exact made.assigning (attached.model_eq instances fits) (fun _ => rfl) fun _ => rfl
  | expire | expireAll | delete | detach => exact made

/-- **An allowed event keeps the records of all entries made by their models.** -/
theorem Allows.makes {context : Context} {event : Event}
    (allowed : program.Allows models request past context event) (typed : request.Typed models)
    (instances : ∀ inst ∈ program.instances, inst.Fits models context.configured)
    (well : context.WellTyped models) (made : context.session.Makes) :
    (event.apply context).session.Makes := by
  refine Event.entries_apply made ?_ ?_
  · rintro key model record row rfl
    cases allowed with
    | created _ _ _ _ from_row => exact .ofRow from_row
  · intro key entry change there changes here
    cases changes with
    | changed =>
        cases allowed with
        | changed found writes =>
            obtain rfl := Option.some.inj (found.symm.trans there)
            exact writes.makes typed instances (well.entries _ _ there) here
    | expired | detached => exact here

/-- **The records of all entries are made by their models**, whatever typed requests have led to
the program. -/
theorem Reaches.makes {admits : Program → Nat → Connection → Request → Prop}
    {schema : Schema} {configs : List Config} (declared : schema.Typed models)
    (reached : Reaches admits (ofConfigs schema configs) program)
    (typed : ∀ {program number connection request},
      admits program number connection request → request.Typed models) :
    ∀ session ∈ program.sessions, session.Makes :=
  reached.sessions declared typed Session.Makes (fun _ => nofun)
    fun allowed typed instances well made => allowed.makes typed instances well made

end Program

end LazyMapper
