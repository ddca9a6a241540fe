import LazyMapper.Proofs.Attribute.Membership
import LazyMapper.Proofs.Session.Entries
import LazyMapper.Session.Access
import LazyMapper.Session.Materialise

/-!
# Changes of entries

What happens to an entry between its creation and its replacement is one of eight changes. Three
of them take values from a row; when the model refuses one of these, the values assigned before
it stay in the record and nothing else changes (`Entry.assigning`).

No change gives an entry another model or handle number (`EntryChange.apply_model`,
`EntryChange.apply_handle`). The functions of a session that write an entry put a change of it in
its place.
-/

set_option autoImplicit false

namespace LazyMapper

namespace Entry

variable {entry : Entry} {model : Model} {assignments : List (String × Value)}
  {settle : Entry → Entry}

/-- The entry with attributes assigned one after the other, settled when none was refused. -/
def assigning (entry : Entry) (model : Model) (assignments : List (String × Value))
    (settle : Entry → Entry) : Entry :=
  match model.assignAll entry.record assignments with
  | (record, .ok ()) => settle { entry with record }
  | (record, .error _) => { entry with record }

theorem assigning_of_ok (ok : (model.assignAll entry.record assignments).2 = .ok ()) :
    entry.assigning model assignments settle =
      settle { entry with record := (model.assignAll entry.record assignments).1 } := by
  unfold assigning
  generalize model.assignAll entry.record assignments = outcome at ok ⊢
  obtain ⟨record, result⟩ := outcome
  obtain rfl : result = .ok () := ok
  rfl

theorem assigning_of_error {error : Error}
    (refused : (model.assignAll entry.record assignments).2 = .error error) :
    entry.assigning model assignments settle =
      { entry with record := (model.assignAll entry.record assignments).1 } := by
  unfold assigning
  generalize model.assignAll entry.record assignments = outcome at refused ⊢
  obtain ⟨record, result⟩ := outcome
  obtain rfl : result = .error error := refused
  rfl

/-- Anything that assigning and settling both keep is kept. -/
theorem assigning_induction (holds : Entry → Prop)
    (unsettled : holds { entry with record := (model.assignAll entry.record assignments).1 })
    (settled : (model.assignAll entry.record assignments).2 = .ok () →
      holds { entry with record := (model.assignAll entry.record assignments).1 } →
        holds (settle { entry with record := (model.assignAll entry.record assignments).1 })) :
    holds (entry.assigning model assignments settle) := by
  cases result : (model.assignAll entry.record assignments).2 with
  | ok _ =>
      rw [assigning_of_ok result]
      exact settled result unsettled
  | error error =>
      rw [assigning_of_error result]
      exact unsettled

/-- The record is as assigned, if settling leaves it. -/
theorem assigning_record (settles : ∀ after, (settle after).record = after.record) :
    (entry.assigning model assignments settle).record =
      (model.assignAll entry.record assignments).1 :=
  assigning_induction (fun after => after.record = (model.assignAll entry.record assignments).1)
    rfl fun _ same => (settles _).trans same

/-- The positions of the attributes that a row selects and the entry has not loaded. -/
def missingFrom (entry : Entry) (model : Model) (row : Row) : List Nat :=
  (model.selectedBy row).filter (!entry.loaded.contains ·)

end Entry

/-- The positions that a row selects are those of fields whose columns it has. -/
theorem Model.mem_selectedBy {model : Model} {row : Row} {index : Nat} :
    index ∈ model.selectedBy row ↔
      ∃ field, model.entity.fields[index]? = some field ∧ row.selects field.column := by
  rw [selectedBy, List.mem_filter, List.mem_range, Option.any_eq_true, and_iff_right_iff_imp]
  rintro ⟨field, here, -⟩
  exact (List.getElem?_eq_some_iff.mp here).1

theorem Model.mem_selectedBy_iff {model : Model} {row : Row} {index : Nat} {field : Field}
    (here : model.entity.fields[index]? = some field) :
    index ∈ model.selectedBy row ↔ row.selects field.column := by
  simp only [mem_selectedBy, here, Option.some.injEq, exists_eq_left']

theorem Entry.mem_missingFrom {model : Model} {row : Row} {entry : Entry} {index : Nat} :
    index ∈ entry.missingFrom model row ↔
      (∃ field, model.entity.fields[index]? = some field ∧ row.selects field.column) ∧
        index ∉ entry.loaded := by
  rw [missingFrom, List.mem_filter, Model.mem_selectedBy]
  exact and_congr_right fun _ => by
    rw [Bool.not_eq_true', ← Bool.not_eq_true]
    rfl

/-- What is assigned from a row to the attributes at given positions. -/
theorem Model.mem_assignments {model : Model} {row : Row} {indices : List Nat}
    {assignment : String × Value} :
    assignment ∈ model.assignments row indices ↔ ∃ index ∈ indices, ∃ field,
      model.entity.fields[index]? = some field ∧
        assignment = (field.name, row.valueOf field.column) := by
  simp only [Model.assignments, List.mem_map, List.mem_filterMap]
  constructor
  · rintro ⟨field, ⟨index, given, here⟩, rfl⟩
    exact ⟨index, given, field, here, rfl⟩
  · rintro ⟨index, given, field, here, rfl⟩
    exact ⟨field, ⟨index, given, here⟩, rfl⟩

theorem LoadPlan.mem_assignments {plan : LoadPlan} {row : Row} {indices : List Nat}
    {assignment : String × Value} :
    assignment ∈ plan.assignments row indices ↔ ∃ index ∈ indices, ∃ planned,
      plan.attributes[index]? = some planned ∧
        assignment = (planned.name, row.valueOf planned.column) := by
  simp only [LoadPlan.assignments, LoadPlan.attributesAt, List.mem_map, List.mem_filterMap]
  constructor
  · rintro ⟨planned, ⟨index, given, here⟩, rfl⟩
    exact ⟨index, given, planned, here, rfl⟩
  · rintro ⟨index, given, planned, here, rfl⟩
    exact ⟨planned, ⟨index, given, here⟩, rfl⟩

/-- A change of one entry. -/
inductive EntryChange where
  /-- What the entry has not loaded is taken from a row that is merged into it. -/
  | absorb (model : Model) (row : Row)
  /-- The attributes at the given positions are fetched on access to one of them. -/
  | fetch (model : Model) (plan : LoadPlan) (indices : List Nat) (row : Row)
  /-- The attributes that the plan loads with the row are loaded again. -/
  | refresh (model : Model) (plan : LoadPlan) (row : Row)
  /-- An attribute is written. -/
  | assign (model : Model) (index : Nat) (name : String) (value : Value)
  | expire (indices keyIndices : List Nat)
  | expireAll (keyIndices : List Nat)
  /-- The row is found to be gone. -/
  | delete
  | detach

namespace EntryChange

/-- The entry after a change. -/
def apply (entry : Entry) : EntryChange → Entry
  | .absorb model row =>
    let missing := entry.missingFrom model row
    entry.assigning model (model.assignments row missing) fun entry =>
      { entry with loaded := entry.loaded.insertAll missing, state := .persistent }
  | .fetch model plan indices row =>
    entry.assigning model (plan.assignments row indices) fun entry =>
      { entry with loaded := entry.loaded.insertAll indices, state := entry.state.reload }
  | .refresh model plan row =>
    entry.assigning model (plan.assignments row plan.eagerIndices) fun entry =>
      { entry with
        loaded := .ofList plan.attributes.length plan.eagerIndices
        version := entry.version + 1
        state := .persistent }
  | .assign model index name value =>
    entry.assigning model [(name, value)] fun entry =>
      { entry with loaded := entry.loaded.insert index }
  | .expire indices keyIndices => entry.expire indices keyIndices
  | .expireAll keyIndices => entry.expireAll keyIndices
  | .delete => { entry with state := .deleted }
  | .detach => { entry with state := .detached }

@[simp] theorem apply_model (entry : Entry) (change : EntryChange) :
    (change.apply entry).model = entry.model := by
  cases change with
  | absorb | fetch | refresh | assign =>
      exact Entry.assigning_induction (fun after => after.model = entry.model) rfl
        fun _ same => same
  | expire | expireAll | delete | detach => rfl

@[simp] theorem apply_handle (entry : Entry) (change : EntryChange) :
    (change.apply entry).handle = entry.handle := by
  cases change with
  | absorb | fetch | refresh | assign =>
      exact Entry.assigning_induction (fun after => after.handle = entry.handle) rfl
        fun _ same => same
  | expire | expireAll | delete | detach => rfl

/-! ## The functions of a session -/

theorem absorb_eq (entry : Entry) (model : Model) (row : Row) :
    entry.absorb model row =
      (apply entry (.absorb model row),
        (model.assignAll entry.record
          (model.assignments row (entry.missingFrom model row))).2) := by
  unfold Entry.absorb apply Entry.assigning Entry.missingFrom
  dsimp only
  generalize model.assignAll _ _ = outcome
  obtain ⟨record, _ | _⟩ := outcome <;> rfl

end EntryChange

theorem Instance.index_eq_ok {inst : Instance} {name : String} {index : Nat} :
    inst.index name = .ok index ↔ inst.plan.index? name = some index := by
  unfold Instance.index
  split
  · rename_i position there
    rw [there, Except.ok.injEq, Option.some.injEq]
  · rename_i missing
    rw [missing]
    exact ⟨nofun, nofun⟩

namespace Session

variable (session : Session) {inst : Instance} {entry : Entry}

/-- Receiving the row of a fetch changes the entry that the instance is attached to. -/
theorem receiveFetched_row (attached : session.attached inst = .ok entry) (name : String)
    (index : Nat) (indices : List Nat) (key : List Value) (row : Row) (rows : List Row) :
    let changed := EntryChange.apply entry (.fetch inst.model inst.plan indices row)
    session.receiveFetched inst name index indices key (row :: rows) =
      match (inst.model.assignAll entry.record (inst.plan.assignments row indices)).2 with
      | .error error => (.error error, inst, session.withEntry inst.key changed)
      | .ok () =>
        (.ok (inst.model.attributeOrNull changed.record name), inst.sync changed,
          (session.withEntry inst.key changed).countLoad inst index) := by
  unfold receiveFetched EntryChange.apply Entry.assigning
  rw [attached]
  dsimp only
  generalize inst.model.assignAll _ _ = outcome
  obtain ⟨record, _ | _⟩ := outcome <;> rfl

/-- Receiving the row of a refresh changes the entry that the instance is attached to. -/
theorem receiveRefreshed_row (attached : session.attached inst = .ok entry) (key : List Value)
    (row : Row) (rows : List Row) :
    let changed := EntryChange.apply entry (.refresh inst.model inst.plan row)
    session.receiveRefreshed inst key (row :: rows) =
      match (inst.model.assignAll entry.record
          (inst.plan.assignments row inst.plan.eagerIndices)).2 with
      | .error error => (.error error, inst, session.withEntry inst.key changed)
      | .ok () => (.ok (), inst.sync changed, session.withEntry inst.key changed) := by
  unfold receiveRefreshed EntryChange.apply Entry.assigning
  rw [attached]
  dsimp only
  generalize inst.model.assignAll _ _ = outcome
  obtain ⟨record, _ | _⟩ := outcome <;> rfl

/-- When a refresh finds no row, the entry is deleted. -/
theorem receiveRefreshed_nothing (attached : session.attached inst = .ok entry)
    (key : List Value) :
    session.receiveRefreshed inst key [] = (.error (deletedError inst key), inst,
      session.withEntry inst.key { entry with state := .deleted }) := by
  unfold receiveRefreshed
  rw [attached]
  rfl

/-- Writing an attribute outside the primary key changes the entry that the instance is attached
to. Nothing else is changed by writing. -/
theorem setAttribute_cases (inst : Instance) (name : String) (value : Value) :
    (∃ error, session.setAttribute inst name value = (.error error, inst, session)) ∨
      ∃ index entry, inst.plan.index? name = some index ∧
        (inst.plan.attributes[index]?).any PlannedAttribute.primaryKey = false ∧
        session.attached inst = .ok entry ∧
        let changed := EntryChange.apply entry (.assign inst.model index name value)
        session.setAttribute inst name value =
          (.ok (), inst.sync changed, session.withEntry inst.key changed) := by
  unfold setAttribute
  cases found : inst.index name with
  | error error => exact .inl ⟨error, rfl⟩
  | ok index =>
      have position := Instance.index_eq_ok.mp found
      dsimp only
      split
      · exact .inl ⟨_, rfl⟩
      · rename_i free
        cases attached : session.attached inst with
        | error error => exact .inl ⟨error, rfl⟩
        | ok entry =>
            dsimp only
            cases stored : inst.model.setAttribute entry.record name value with
            | error error => exact .inl ⟨error, rfl⟩
            | ok record =>
                refine .inr ⟨index, entry, position, Bool.not_eq_true _ ▸ free, rfl, ?_⟩
                have assigned : inst.model.assignAll entry.record [(name, value)] =
                    (record, .ok ()) := by
                  rw [Model.assignAll, stored]
                  rfl
                simp only [EntryChange.apply, Entry.assigning, assigned]

/-- Expiring attributes changes the entry that the instance is attached to. The session has met
the model of the instance by then, unless a name is unknown. -/
theorem expire_cases (inst : Instance) (names : List String) :
    (∃ error, session.expire inst names = (.error error, inst, session)) ∨
      ∃ indices, names.mapM inst.index = .ok indices ∧
        let met := session.meet inst.model
        (∃ error, session.expire inst names = (.error error, inst, met)) ∨
          ∃ entry, met.attached inst = .ok entry ∧
            let keyIndices := met.keyIndicesOf inst.model.table
            let changed := EntryChange.apply entry
              (if indices.isEmpty then .expireAll keyIndices else .expire indices keyIndices)
            session.expire inst names =
              (.ok (), inst.sync changed, met.withEntry inst.key changed) := by
  unfold expire
  cases found : names.mapM inst.index with
  | error error => exact .inl ⟨error, rfl⟩
  | ok indices =>
      refine .inr ⟨indices, rfl, ?_⟩
      dsimp only
      cases attached : (session.meet inst.model).attached inst with
      | error error => exact .inl ⟨error, rfl⟩
      | ok entry =>
          refine .inr ⟨entry, rfl, ?_⟩
          cases indices <;> rfl

/-- Expunging an instance detaches the entry that it is attached to, if there is one. -/
theorem expunge_cases (inst : Instance) :
    (session.attached? inst = none ∧ session.expunge inst = session) ∨
      ∃ entry, session.attached? inst = some entry ∧
        session.expunge inst =
          session.withEntry inst.key (EntryChange.apply entry .detach) := by
  unfold expunge
  cases attached : session.attached? inst with
  | none => exact .inl ⟨rfl, rfl⟩
  | some entry => exact .inr ⟨entry, rfl, rfl⟩

end Session

end LazyMapper
