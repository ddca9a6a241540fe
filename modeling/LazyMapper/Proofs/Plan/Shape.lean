import LazyMapper.Plan.Merge
import LazyMapper.Proofs.Entity.Validity

/-!
# The shape of load plans

Whatever directives are merged, a plan lists the fields of its entity in their order, with their
columns, and loads the primary key with the row (`LoadPlan.suits_of_merge`). So a position means
the same attribute in a plan, in the entity and in a set of loaded attributes.
-/

set_option autoImplicit false

namespace LazyMapper

/-! ## Modes while directives are merged -/

namespace Merger

/-- There is one mode per field, and the primary key is loaded with the row. -/
structure Sound (merger : Merger) : Prop where
  complete : merger.modes.length = merger.entity.fields.length
  keyed : ∀ {index : Nat} {field : Field} {mode : ResolvedMode},
    merger.entity.fields[index]? = some field → merger.modes[index]? = some mode →
      merger.entity.isPrimaryKey field.name → mode = .eager

theorem sound_start (entity : Entity) : (start entity).Sound where
  complete := by simp [start]
  keyed := by
    intro index field mode here there key
    simp only [start] at here there key
    rw [List.getElem?_map, here, Option.map_some, Option.some.injEq] at there
    rw [← there, defaultMode, if_pos key]

variable {merger : Merger}

/-- Changing every mode by a rule that loads the primary key with the row if it was. -/
theorem Sound.changeEach (sound : merger.Sound) {rule : Field → ResolvedMode → ResolvedMode}
    (keeps : ∀ field, merger.entity.isPrimaryKey field.name → rule field .eager = .eager) :
    (merger.changeEach rule).Sound where
  complete := by simp [Merger.changeEach, sound.complete]
  keyed := by
    intro index field mode here there key
    simp only [Merger.changeEach] at here there key
    rw [List.getElem?_zipWith, here] at there
    cases before : merger.modes[index]? with
    | none => rw [before] at there; cases there
    | some old =>
        rw [before, sound.keyed here before key] at there
        rw [← Option.some.inj there, keeps field key]

/-- Replacing one mode, that of an attribute outside the primary key unless it is loaded with
the row. -/
theorem Sound.setAt (sound : merger.Sound) {position : Nat} {mode : ResolvedMode}
    (allowed : ∀ field, merger.entity.fields[position]? = some field →
      merger.entity.isPrimaryKey field.name → mode = .eager) :
    (merger.setAt position mode).Sound where
  complete := by simp [Merger.setAt, sound.complete]
  keyed := by
    intro index field found here there key
    simp only [Merger.setAt] at here there key
    rw [List.getElem?_set] at there
    split at there
    · rename_i same
      subst same
      split at there
      · rw [← Option.some.inj there]
        exact allowed field here key
      · cases there
    · exact sound.keyed here there key

theorem Sound.deferAll (sound : merger.Sound) (raising : Bool) :
    (merger.deferAll raising).Sound :=
  sound.changeEach fun _ key => by simp only [if_pos key]

theorem Sound.undeferAt (sound : merger.Sound) (indices : List Nat) :
    (merger.undeferAt indices).Sound := by
  induction indices generalizing merger with
  | nil => exact sound
  | cons index rest ih => exact ih (sound.setAt fun _ _ _ => rfl)

theorem entity_undeferAt (merger : Merger) (indices : List Nat) :
    (merger.undeferAt indices).entity = merger.entity := by
  induction indices generalizing merger with
  | nil => rfl
  | cons index rest ih => exact ih (merger.setAt index .eager)

theorem index?_of_index_eq_ok {name : String} {index : Nat}
    (found : merger.index name = .ok index) : merger.entity.index? name = some index := by
  rw [Merger.index] at found
  split at found
  · rename_i position here
    rw [here, Except.ok.inj found]
  · cases found

/-- **A directive that is not refused keeps one mode per field and the primary key loaded.** -/
theorem Sound.apply (sound : merger.Sound) {directive : Directive} {after : Merger}
    (ok : merger.apply directive = .ok after) : after.Sound ∧ after.entity = merger.entity := by
  cases directive with
  | defer attributes raising =>
      cases attributes with
      | all =>
          obtain rfl := Except.ok.inj ok
          exact ⟨sound.deferAll raising, rfl⟩
      | named name =>
          obtain ⟨position, found, ok⟩ := exists_of_bind_eq_ok ok
          have named := index?_of_index_eq_ok found
          split at ok
          · obtain rfl := Except.ok.inj ok
            exact ⟨sound, rfl⟩
          · rename_i outside
            split at ok
            · rename_i field here
              obtain rfl := Except.ok.inj ok
              refine ⟨sound.setAt fun other there key => absurd key ?_, rfl⟩
              obtain ⟨same, position, rfl⟩ := Entity.exists_field_of_index? named
              rw [position, Option.some.injEq] at there
              rwa [← there]
            · obtain rfl := Except.ok.inj ok
              exact ⟨sound, rfl⟩
  | undefer attributes =>
      cases attributes with
      | all =>
          obtain rfl := Except.ok.inj ok
          exact ⟨sound.changeEach fun _ _ => rfl, rfl⟩
      | named name =>
          obtain ⟨position, -, ok⟩ := exists_of_bind_eq_ok ok
          obtain rfl := Except.ok.inj ok
          exact ⟨sound.setAt fun _ _ _ => rfl, rfl⟩
  | undeferGroup group =>
      rw [Merger.apply] at ok
      split at ok
      · obtain rfl := Except.ok.inj ok
        exact ⟨sound.changeEach fun _ _ => ite_self _, rfl⟩
      · cases ok
  | loadOnly names raising =>
      obtain ⟨kept, -, ok⟩ := exists_of_bind_eq_ok ok
      obtain rfl := Except.ok.inj ok
      exact ⟨(sound.deferAll raising).undeferAt kept, entity_undeferAt _ kept⟩

theorem Sound.applyAll (sound : merger.Sound) {directives : List Directive} {after : Merger}
    (ok : merger.applyAll directives = .ok after) :
    after.Sound ∧ after.entity = merger.entity := by
  induction directives generalizing merger with
  | nil =>
      obtain rfl := Except.ok.inj ok
      exact ⟨sound, rfl⟩
  | cons directive rest ih =>
      obtain ⟨next, first, ok⟩ := exists_of_bind_eq_ok ok
      obtain ⟨soundNext, same⟩ := sound.apply first
      obtain ⟨soundAfter, last⟩ := ih soundNext ok
      exact ⟨soundAfter, last.trans same⟩

end Merger

/-! ## Plans -/

namespace LoadPlan

/-- The plan is one of the entity: it lists its fields in their order with their columns, marks the
primary key, and loads it with the row. -/
structure Suits (plan : LoadPlan) (entity : Entity) : Prop where
  owner : plan.entity = entity
  names : plan.attributes.map PlannedAttribute.name = entity.fields.map Field.name
  columns : plan.attributes.map PlannedAttribute.column = entity.fields.map Field.column
  marks : plan.attributes.map PlannedAttribute.primaryKey =
    entity.fields.map (entity.isPrimaryKey ·.name)
  keyed : ∀ planned ∈ plan.attributes, entity.isPrimaryKey planned.name → planned.mode = .eager

end LoadPlan

/-- What the planned attributes keep of their fields, whatever the modes are. -/
theorem Merger.Sound.map_finish {α : Type} {merger : Merger} (sound : merger.Sound)
    (ofField : Field → α) (ofPlanned : PlannedAttribute → α)
    (same : ∀ field mode, ofPlanned (planned merger.entity field mode) = ofField field) :
    merger.finish.attributes.map ofPlanned = merger.entity.fields.map ofField := by
  apply List.ext_getElem?
  intro index
  simp only [finish, List.getElem?_map, List.getElem?_zipWith]
  cases here : merger.entity.fields[index]? with
  | none => rfl
  | some field =>
      have inside := (List.getElem?_eq_some_iff.mp here).1
      rw [← sound.complete] at inside
      rw [List.getElem?_eq_getElem inside]
      exact congrArg some (same field _)

theorem Merger.Sound.finish_suits {merger : Merger} (sound : merger.Sound) :
    merger.finish.Suits merger.entity where
  owner := rfl
  names := sound.map_finish _ _ fun _ _ => rfl
  columns := sound.map_finish _ _ fun _ _ => rfl
  marks := sound.map_finish _ _ fun _ _ => rfl
  keyed := by
    intro planned member key
    obtain ⟨index, here⟩ := List.mem_iff_getElem?.mp member
    simp only [Merger.finish, List.getElem?_zipWith] at here
    split at here
    · rename_i field mode at_field at_mode
      obtain rfl := Option.some.inj here
      exact sound.keyed at_field at_mode key
    · cases here

namespace LoadPlan

/-- **A merged plan is a plan of its entity**, whatever the directives are. -/
theorem suits_of_merge {entity : Entity} {directives : List Directive} {plan : LoadPlan}
    (merged : merge entity directives = .ok plan) : plan.Suits entity := by
  obtain ⟨after, applied, ok⟩ := exists_of_bind_eq_ok merged
  obtain rfl := Except.ok.inj ok
  obtain ⟨sound, same⟩ := (Merger.sound_start entity).applyAll applied
  have suits := sound.finish_suits
  rwa [same] at suits

namespace Suits

variable {plan : LoadPlan} {entity : Entity}

theorem length_eq (suits : plan.Suits entity) : plan.attributes.length = entity.fields.length := by
  simpa using congrArg List.length suits.names

theorem index?_eq (suits : plan.Suits entity) (name : String) :
    plan.index? name = entity.index? name := by
  rw [Entity.index?_eq_findIdx?, ← suits.names, List.findIdx?_map]
  rfl

/-- The field behind a planned attribute. -/
theorem exists_field (suits : plan.Suits entity) {index : Nat} {planned : PlannedAttribute}
    (here : plan.attributes[index]? = some planned) :
    ∃ field, entity.fields[index]? = some field ∧ field.name = planned.name ∧
      field.column = planned.column := by
  have inside := (List.getElem?_eq_some_iff.mp here).1
  rw [suits.length_eq] at inside
  refine ⟨entity.fields[index], List.getElem?_eq_getElem inside, ?_, ?_⟩
  · have names := congrArg (·[index]?) suits.names
    simpa [here, List.getElem?_eq_getElem inside] using names.symm
  · have columns := congrArg (·[index]?) suits.columns
    simpa [here, List.getElem?_eq_getElem inside] using columns.symm

/-- The planned attribute of a field. -/
theorem exists_planned (suits : plan.Suits entity) {index : Nat} {field : Field}
    (here : entity.fields[index]? = some field) :
    ∃ planned, plan.attributes[index]? = some planned ∧ planned.name = field.name ∧
      planned.column = field.column := by
  have inside := (List.getElem?_eq_some_iff.mp here).1
  rw [← suits.length_eq] at inside
  have there := List.getElem?_eq_getElem inside
  obtain ⟨same, position, named, mapped⟩ := suits.exists_field there
  obtain rfl : same = field := Option.some.inj (position.symm.trans here)
  exact ⟨_, there, named.symm, mapped.symm⟩

/-- The attributes of the primary key are marked at their positions. -/
theorem any_primaryKey (suits : plan.Suits entity) {name : String} {index : Nat}
    (position : plan.index? name = some index) :
    (plan.attributes[index]?).any PlannedAttribute.primaryKey = entity.isPrimaryKey name := by
  rw [suits.index?_eq] at position
  obtain ⟨field, here, rfl⟩ := Entity.exists_field_of_index? position
  obtain ⟨planned, there, -, -⟩ := suits.exists_planned here
  have marks := congrArg (·[index]?) suits.marks
  simpa [here, there] using marks

/-- The columns selected with the row include those of the primary key. -/
theorem mem_eagerColumns (suits : plan.Suits entity) {index : Nat} {field : Field}
    (here : entity.fields[index]? = some field) (key : entity.isPrimaryKey field.name) :
    field.column ∈ plan.eagerColumns := by
  obtain ⟨planned, there, named, mapped⟩ := suits.exists_planned here
  have member := List.mem_of_getElem? there
  have eager := suits.keyed planned member (by rwa [named])
  rw [← mapped]
  refine List.mem_map_of_mem (List.mem_filter.mpr ⟨member, ?_⟩)
  rw [eager]
  rfl

end Suits

end LoadPlan

end LazyMapper
