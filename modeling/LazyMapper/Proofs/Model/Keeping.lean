import LazyMapper.Model.Catalogue
import LazyMapper.Proofs.Model.Storing

/-!
# Models that keep what they are given

A model may hold attributes that it does not report, among them the placeholders of those that are
not loaded. It keeps what it is given when there is a value held for every attribute that a row or
an assignment sets, by which the key is made and from which the reports are taken (`Keeps`). In
this a hidden attribute is like any other.

The ordinary behaviour keeps what it is given, whatever it hides and whatever types it asks for
(`ofEntity_keeps`), so all models of the catalogue do (`Catalogue.models_keep`).
-/

set_option autoImplicit false

namespace LazyMapper.Model

/-- The model keeps what it is given, and `held` tells the value that a record holds for an
attribute. A column that a row selects without a value holds null. -/
structure Keeps (model : Model) (held : Record → String → Value) : Prop where
  key : ∀ {record : Record}, model.Makes record →
    model.keyOf record = model.entity.primaryKey.map (held record)
  reported : ∀ {record : Record} {name : String} {value : Value}, model.Makes record →
    model.attribute? record name = some value → held record name = value
  selected : ∀ {row : Row} {record : Record} {name : String} {field : Field},
    model.fromRow row = .ok record → model.entity.field? name = some field →
      row.selects field.column → held record name = row.valueOf field.column
  assigned : ∀ {record record' : Record} {name : String} {value : Value}, model.Makes record →
    model.setAttribute record name value = .ok record' → ∀ other,
      held record' other = if other = name then value else held record other

/-- Different attributes that are all assigned hold the values given afterwards, and the others
what they held. -/
theorem Keeps.assignAll {model : Model} {held : Record → String → Value} (keeps : model.Keeps held)
    {record : Record} (makes : model.Makes record) {assignments : List (String × Value)}
    (distinct : (assignments.map Prod.fst).Nodup)
    (ok : (model.assignAll record assignments).2 = .ok ()) :
    let after := (model.assignAll record assignments).1
    (∀ assignment ∈ assignments, held after assignment.1 = assignment.2) ∧
      ∀ name, name ∉ assignments.map Prod.fst → held after name = held record name :=
  makes.assignAll_reads held id keeps.assigned distinct ok

/-! ## The ordinary behaviour -/

section Ordinary

variable {entity : Entity} {types : List (String × AttributeType)} {hidden : List String}

/-- The value at the position of an attribute. -/
def heldAt (entity : Entity) (record : Record) (name : String) : Value :=
  ((entity.index? name).bind (record[·]?)).getD .null

/-- What an ordinary model takes from a row is the value of the column, null if there is none. -/
theorem valueFrom_eq_ok {row : Row} {field : Field} {stored : Value}
    (ok : valueFrom entity types row field = .ok stored) : stored = row.valueOf field.column := by
  unfold Row.valueOf
  cases found : row.find? field.column with
  | some given => exact valueFrom_of_find? found ok
  | none =>
      rw [valueFrom, found] at ok
      dsimp only at ok
      split at ok
      · cases ok
      · rw [checked] at ok
        split at ok
        · exact (Except.ok.inj ok).symm
        · cases ok

/-- **The ordinary behaviour keeps what it is given**, whatever it hides. -/
theorem ofEntity_keeps : (ofEntity entity types hidden).Keeps (heldAt entity) where
  key := fun _ => rfl
  reported := by
    intro record name value _ reported
    rw [ofEntity_attribute?] at reported
    split at reported
    · cases reported
    · rw [heldAt, reported]
      rfl
  selected := by
    intro row record name field made mapped _
    obtain ⟨index, position, here⟩ := Entity.index?_of_field? mapped
    obtain ⟨inside, rfl⟩ := List.getElem?_eq_some_iff.mp here
    have stored := forall₂_of_mapM_eq_ok made
    have inside' : index < record.length := stored.length_eq ▸ inside
    rw [heldAt, show entity.index? name = some index from position, Option.bind_some,
      List.getElem?_eq_getElem inside']
    exact valueFrom_eq_ok (stored.get inside inside')
  assigned := by
    intro record record' name value makes ok other
    obtain ⟨index, found, rfl⟩ := ofEntity_setAttribute ok
    unfold heldAt
    by_cases same : other = name
    · subst same
      obtain ⟨field, here, -⟩ := Entity.exists_field_of_index? found
      have inside : index < record.length := by
        rw [makes.ofEntity_length]
        exact (List.getElem?_eq_some_iff.mp here).1
      rw [if_pos rfl, found, Option.bind_some, List.getElem?_set_self inside]
      rfl
    · rw [if_neg same]
      cases there : entity.index? other with
      | none => rfl
      | some position =>
          have elsewhere : index ≠ position := by
            rintro rfl
            exact same (Entity.name_eq_of_index? there found)
          rw [Option.bind_some, Option.bind_some, List.getElem?_set_ne elsewhere]

end Ordinary

end LazyMapper.Model

namespace LazyMapper.Catalogue

/-- **All models of the catalogue keep what they are given.** -/
theorem models_keep : ∀ item ∈ models, item.2.Keeps (Model.heldAt item.2.entity) := by
  intro item member
  simp only [models, List.map_cons, List.map_nil, List.mem_cons, List.not_mem_nil,
    or_false] at member
  obtain rfl | rfl | rfl | rfl | rfl | rfl | rfl | rfl | rfl | rfl | rfl := member <;>
    exact Model.ofEntity_keeps

end LazyMapper.Catalogue
