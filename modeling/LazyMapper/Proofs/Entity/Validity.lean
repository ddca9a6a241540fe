import LazyMapper.Entity.Validation
import Mathlib.Data.List.Nodup
import LazyMapper.Proofs.Sequence

/-!
# Valid mappings

What a mapping has that passes its check. Each part of the check decides one part of what makes a
mapping consistent, so together they decide all of it (`Entity.validate_eq_ok_iff`). Loading
attributes relies on two facts: attribute names tell the fields apart, and the attributes of the
primary key are fields (`Entity.valid_of_validate`). A check with a memory does one of three things
(`Entity.configure_run`).

The first part is about finding fields by name.
-/

set_option autoImplicit false

namespace LazyMapper.Entity

variable {entity : Entity}

/-! ## Fields by name -/

theorem index?_eq_findIdx? (entity : Entity) (name : String) :
    entity.index? name = (entity.fields.map Field.name).findIdx? (· == name) := by
  rw [index?, List.findIdx?_map]
  rfl

theorem exists_field_of_index? {name : String} {index : Nat}
    (found : entity.index? name = some index) :
    ∃ field, entity.fields[index]? = some field ∧ field.name = name := by
  obtain ⟨inside, named, -⟩ := List.findIdx?_eq_some_iff_getElem.mp found
  exact ⟨entity.fields[index], List.getElem?_eq_getElem inside, by simpa using named⟩

/-- Attributes found at one position have one name. -/
theorem name_eq_of_index? {name other : String} {index : Nat}
    (found : entity.index? name = some index) (found' : entity.index? other = some index) :
    name = other := by
  obtain ⟨field, here, rfl⟩ := exists_field_of_index? found
  obtain ⟨field', here', rfl⟩ := exists_field_of_index? found'
  rw [Option.some.inj (here.symm.trans here')]

theorem name_of_field? {name : String} {field : Field} (found : entity.field? name = some field) :
    field.name = name := by
  simpa using List.find?_some found

theorem mem_of_field? {name : String} {field : Field} (found : entity.field? name = some field) :
    field ∈ entity.fields :=
  List.mem_of_find?_eq_some found

/-- The field found under a name stands at the position found under it. -/
theorem index?_of_field? {name : String} {field : Field}
    (found : entity.field? name = some field) :
    ∃ index, entity.index? name = some index ∧ entity.fields[index]? = some field := by
  obtain ⟨named, index, inside, rfl, first⟩ := List.find?_eq_some_iff_getElem.mp found
  refine ⟨index, List.findIdx?_eq_some_iff_getElem.mpr ⟨inside, named, ?_⟩,
    List.getElem?_eq_getElem inside⟩
  intro earlier before
  simpa using first earlier before

/-- Under names of their own fields are found exactly by these. -/
theorem field?_eq_some_iff (distinct : (entity.fields.map Field.name).Nodup) {name : String}
    {field : Field} :
    entity.field? name = some field ↔ field ∈ entity.fields ∧ field.name = name := by
  constructor
  · exact fun found => ⟨mem_of_field? found, name_of_field? found⟩
  · rintro ⟨member, rfl⟩
    obtain ⟨found, lookup⟩ : ∃ found, entity.field? field.name = some found := by
      rw [← Option.isSome_iff_exists, field?, List.find?_isSome]
      exact ⟨field, member, beq_self_eq_true _⟩
    rw [lookup, List.inj_on_of_nodup_map distinct (mem_of_field? lookup) member
      (name_of_field? lookup)]

/-- A name is that of a field when one is found under it. -/
theorem isSome_field?_iff {name : String} :
    (entity.field? name).isSome ↔ ∃ field ∈ entity.fields, field.name = name := by
  rw [field?, List.find?_isSome]
  simp only [beq_iff_eq]

end LazyMapper.Entity

namespace LazyMapper

/-! ## Consistent mappings -/

/-- A relationship is keyed on the parent when it is many to one, or one to one with a local key. -/
def Relationship.IsKeyedOnParent (relationship : Relationship) : Prop :=
  relationship.cardinality = .manyToOne ∨
    relationship.cardinality = .oneToOne ∧ ∃ key, relationship.localKey? = some key

theorem Relationship.keyedOnParent_iff {relationship : Relationship} :
    relationship.keyedOnParent ↔ relationship.IsKeyedOnParent := by
  unfold keyedOnParent IsKeyedOnParent
  cases relationship.cardinality <;> simp [Option.isSome_iff_exists]

namespace Entity

/-- A relationship has the key that its kind needs: on the parent one that is a field of it, or else
one on the related entity. -/
structure HasKey (entity : Entity) (relationship : Relationship) : Prop where
  onParent : relationship.IsKeyedOnParent →
    ∃ key, relationship.localKey? = some key ∧ ∃ field ∈ entity.fields, field.name = key
  onRelated : ¬ relationship.IsKeyedOnParent → ∃ key, relationship.remoteKey? = some key

/-- Attributes have names of their own and deferred groups have names at all, the primary key is not
empty and consists of attributes that are loaded with the row, and relationships have their keys. -/
structure Consistent (entity : Entity) : Prop where
  distinct : (entity.fields.map Field.name).Nodup
  grouped : ∀ field ∈ entity.fields, field.load ≠ .deferredGroup ""
  keyed : entity.primaryKey ≠ []
  eager : ∀ name ∈ entity.primaryKey,
    ∃ field ∈ entity.fields, field.name = name ∧ field.load = .eager
  related : ∀ relationship ∈ entity.relationships, entity.HasKey relationship

variable {entity : Entity}

/-! ## What the check decides -/

theorem validateFields_eq_ok_iff {table : String} {seen : List String} {fields : List Field} :
    validateFields table seen fields = .ok () ↔ (fields.map Field.name).Nodup ∧
      (∀ field ∈ fields, field.name ∉ seen) ∧ ∀ field ∈ fields, field.load ≠ .deferredGroup "" := by
  induction fields generalizing seen with
  | nil => simp [validateFields]
  | cons field rest ih =>
      rw [validateFields, List.map_cons, List.nodup_cons, List.forall_mem_cons,
        List.forall_mem_cons]
      by_cases known : field.name ∈ seen
      · simp [known]
      · by_cases nameless : field.load = .deferredGroup ""
        · simp [known, nameless]
        · rw [if_neg (by simpa using known), if_neg nameless, ih]
          -- The names behind are neither the first one nor among those seen before.
          have behind : (∀ other ∈ rest, other.name ∉ field.name :: seen) ↔
              field.name ∉ rest.map Field.name ∧ ∀ other ∈ rest, other.name ∉ seen := by
            simp only [List.mem_cons, not_or, List.mem_map, not_exists, not_and, ← forall_and]
          rw [behind]
          simp only [known, nameless, not_false_eq_true, true_and, ne_eq]
          tauto

theorem validateKey_eq_ok_iff {names : List String} :
    validateKey entity names = .ok () ↔
      ∀ name ∈ names, ∃ field, entity.field? name = some field ∧ field.load = .eager := by
  induction names with
  | nil => simp [validateKey]
  | cons name rest ih =>
      rw [validateKey, List.forall_mem_cons, ← ih]
      cases entity.field? name with
      | none => simp
      | some field => by_cases eager : field.load = .eager <;> simp [eager]

theorem validateRelationship_eq_ok_iff {relationship : Relationship} :
    validateRelationship entity relationship = .ok () ↔ entity.HasKey relationship := by
  unfold validateRelationship
  by_cases parent : relationship.IsKeyedOnParent
  · rw [if_pos (Relationship.keyedOnParent_iff.mpr parent)]
    constructor
    · intro valid
      refine ⟨fun _ => ?_, fun other => absurd parent other⟩
      split at valid
      · cases valid
      · rename_i key named
        split at valid
        · rename_i found
          exact ⟨key, named, isSome_field?_iff.mp found⟩
        · cases valid
    · intro has
      obtain ⟨key, named, mapped⟩ := has.onParent parent
      rw [named]
      exact if_pos (isSome_field?_iff.mpr mapped)
  · rw [if_neg (mt Relationship.keyedOnParent_iff.mp parent)]
    constructor
    · intro valid
      refine ⟨fun other => absurd other parent, fun _ => ?_⟩
      split at valid
      · rename_i found
        exact Option.isSome_iff_exists.mp found
      · cases valid
    · exact fun has => if_pos (Option.isSome_iff_exists.mpr (has.onRelated parent))

theorem validateRelationships_eq_ok_iff {relationships : List Relationship} :
    validateRelationships entity relationships = .ok () ↔
      ∀ relationship ∈ relationships, entity.HasKey relationship := by
  induction relationships with
  | nil => simp [validateRelationships]
  | cons relationship rest ih =>
      rw [validateRelationships, check_bind_eq_ok_iff, validateRelationship_eq_ok_iff, ih,
        List.forall_mem_cons]

/-- The check succeeds when its parts do, one after the other. -/
theorem validate_eq_ok_iff_parts : entity.validate = .ok () ↔
    validateFields entity.table [] entity.fields = .ok () ∧ entity.primaryKey ≠ [] ∧
      validateKey entity entity.primaryKey = .ok () ∧
      validateRelationships entity entity.relationships = .ok () := by
  unfold validate
  rw [check_bind_eq_ok_iff]
  refine and_congr_right fun _ => ?_
  cases entity.primaryKey with
  | nil => exact iff_of_false nofun fun parts => parts.1 rfl
  | cons name rest =>
      exact check_bind_eq_ok_iff.trans (and_iff_right (List.cons_ne_nil name rest)).symm

/-- **A mapping passes its check exactly when it is consistent.** -/
theorem validate_eq_ok_iff : entity.validate = .ok () ↔ entity.Consistent := by
  have key (distinct : (entity.fields.map Field.name).Nodup) :
      validateKey entity entity.primaryKey = .ok () ↔ ∀ name ∈ entity.primaryKey,
        ∃ field ∈ entity.fields, field.name = name ∧ field.load = .eager := by
    simp only [validateKey_eq_ok_iff, field?_eq_some_iff distinct, and_assoc]
  rw [validate_eq_ok_iff_parts, validateFields_eq_ok_iff, validateRelationships_eq_ok_iff]
  constructor
  · rintro ⟨⟨distinct, -, grouped⟩, keyed, eager, related⟩
    exact ⟨distinct, grouped, keyed, (key distinct).mp eager, related⟩
  · intro consistent
    exact ⟨⟨consistent.distinct, fun _ _ => List.not_mem_nil, consistent.grouped⟩,
      consistent.keyed, (key consistent.distinct).mpr consistent.eager, consistent.related⟩

/-! ## The remembered check -/

/-- A check is skipped, or made and remembered if it succeeds. -/
theorem configure_run (entity : Entity) (remembered : Configured) :
    entity.configure.run.run remembered =
      if entity.typeName ∈ remembered then (.ok (), remembered)
      else match entity.validate with
        | .ok () => (.ok (), entity.typeName :: remembered)
        | .error fault => (.error (.mapping fault), remembered) := by
  have looked : (get : Configuring Configured).run.run remembered = (.ok remembered, remembered) :=
    rfl
  unfold configure
  rw [run_bind_of_ok looked]
  by_cases seen : entity.typeName ∈ remembered
  · rw [if_pos seen, List.contains_iff_mem.mpr seen]
    rfl
  · rw [if_neg seen, Bool.eq_false_iff.mpr (mt List.contains_iff_mem.mp seen)]
    cases entity.validate <;> rfl

/-! ## What the check establishes -/

/-- The fields of a mapping have names of their own, and its primary key consists of fields. -/
structure Valid (entity : Entity) : Prop where
  distinct : (entity.fields.map Field.name).Nodup
  keyed : ∀ name ∈ entity.primaryKey, (entity.field? name).isSome

/-- A mapping that passes its check is valid. -/
theorem valid_of_validate (valid : entity.validate = .ok ()) : entity.Valid := by
  have consistent := validate_eq_ok_iff.mp valid
  refine ⟨consistent.distinct, fun name member => isSome_field?_iff.mpr ?_⟩
  obtain ⟨field, mapped, named, -⟩ := consistent.eager name member
  exact ⟨field, mapped, named⟩

/-- A mapping that passes its check has a primary key. -/
theorem primaryKey_ne_nil (valid : entity.validate = .ok ()) : entity.primaryKey ≠ [] :=
  (validate_eq_ok_iff.mp valid).keyed

/-! ## Fields of valid mappings -/

namespace Valid

theorem index_unique (valid : entity.Valid) {first second : Nat} {field other : Field}
    (here : entity.fields[first]? = some field) (there : entity.fields[second]? = some other)
    (same : field.name = other.name) : first = second := by
  have named : (entity.fields.map Field.name)[first]? = some field.name := by simp [here]
  have named' : (entity.fields.map Field.name)[second]? = some field.name := by
    simp [there, same]
  have inside := (List.getElem?_eq_some_iff.mp named).1
  exact (List.getElem?_inj inside valid.distinct).mp (named.trans named'.symm)

/-- A field is found under its name. -/
theorem field?_eq (valid : entity.Valid) {index : Nat} {field : Field}
    (here : entity.fields[index]? = some field) : entity.field? field.name = some field :=
  (field?_eq_some_iff valid.distinct).mpr ⟨List.mem_of_getElem? here, rfl⟩

/-- Different positions have different names. -/
theorem nodup_names (valid : entity.Valid) {indices : List Nat}
    (sorted : indices.Pairwise (· < ·)) :
    (indices.filterMap ((entity.fields.map Field.name)[·]?)).Nodup := by
  refine List.Nodup.filterMap (fun first second name here there => ?_) (sorted.imp Nat.ne_of_lt)
  exact (List.getElem?_inj (List.getElem?_eq_some_iff.mp here).1 valid.distinct).mp
    (here.trans there.symm)

end Valid

end Entity

end LazyMapper
