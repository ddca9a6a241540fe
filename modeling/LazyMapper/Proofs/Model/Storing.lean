import LazyMapper.Model.Basic
import LazyMapper.Proofs.Entity.Validity

/-!
# Models that store what they are given

What a model must promise for its attributes to be what the library has put there. Every model
should change nothing but the named attribute when it assigns one (`ChangesOnlyNamed`); one that
stores attributes as given also reports them with the values of the row or of the assignment, and
has the key that it reports (`StoresAsGiven`).

The ordinary behaviour of a model keeps both promises, the second one when it hides no attribute
(`ofEntity_changesOnlyNamed`, `ofEntity_storesAsGiven`).
-/

set_option autoImplicit false

namespace LazyMapper.Model

/-! ## Promises -/

/-- Assigning an attribute changes no other one. -/
def ChangesOnlyNamed (model : Model) : Prop :=
  ∀ {record record' : Record} {name : String} {value : Value},
    model.setAttribute record name value = .ok record' → ∀ other, other ≠ name →
      model.attribute? record' other = model.attribute? record other

/-- The records that a model makes of rows and by assigning attributes. -/
inductive Makes (model : Model) : Record → Prop where
  | ofRow {row : Row} {record : Record} (made : model.fromRow row = .ok record) :
      Makes model record
  | assigned {record record' : Record} {name : String} {value : Value}
      (before : Makes model record) (ok : model.setAttribute record name value = .ok record') :
      Makes model record'

/-- A model reports what it is given: the values of the columns that a row selects, and those
that are assigned. Its key consists of the primary key attributes as it reports them. -/
structure StoresAsGiven (model : Model) : Prop where
  key : ∀ {record : Record}, model.Makes record →
    model.keyOf record = model.entity.primaryKey.map (model.attributeOrNull record)
  selected : ∀ {row : Row} {record : Record} {name : String} {field : Field} {value : Value},
    model.fromRow row = .ok record → model.entity.field? name = some field →
      row.find? field.column = some value → model.attribute? record name = some value
  assigned : ∀ {record record' : Record} {name : String} {value : Value}, model.Makes record →
    model.setAttribute record name value = .ok record' → ∀ other,
      model.attribute? record' other = if other = name then some value
        else model.attribute? record other

/-- A model reports an attribute that is assigned with the value given, and the others as
before. -/
def AssignsAsGiven (model : Model) : Prop :=
  ∀ {record record' : Record} {name : String} {value : Value}, model.Makes record →
    model.setAttribute record name value = .ok record' → ∀ other,
      model.attribute? record' other = if other = name then some value
        else model.attribute? record other

/-! ## Assigning several attributes -/

variable {model : Model}

/-- Attributes that are not assigned keep their values, also when one is refused. -/
theorem ChangesOnlyNamed.assignAll (promise : model.ChangesOnlyNamed) {name : String}
    {assignments : List (String × Value)} (apart : name ∉ assignments.map Prod.fst)
    (record : Record) :
    model.attribute? (model.assignAll record assignments).1 name =
      model.attribute? record name := by
  induction assignments generalizing record with
  | nil => rfl
  | cons assignment rest ih =>
      obtain ⟨other, value⟩ := assignment
      obtain ⟨here, later⟩ := not_or.mp (List.mem_cons.not.mp apart)
      rw [Model.assignAll]
      split
      · rename_i record' ok
        rw [ih later record', promise ok name here]
      · rfl

theorem Makes.assignAll {record : Record} (makes : model.Makes record)
    (assignments : List (String × Value)) :
    model.Makes (model.assignAll record assignments).1 := by
  induction assignments generalizing record with
  | nil => exact makes
  | cons assignment rest ih =>
      rw [Model.assignAll]
      split
      · rename_i record' ok
        exact ih (makes.assigned ok)
      · exact makes

/-- What is assigned when a value is refused: all that comes before it. -/
theorem assignAll_of_refused {record after : Record} {assignments : List (String × Value)}
    {error : Error} (refused : model.assignAll record assignments = (after, .error error)) :
    ∃ accepted name value rest, assignments = accepted ++ (name, value) :: rest ∧
      model.assignAll record accepted = (after, .ok ()) ∧
      model.setAttribute after name value = .error error := by
  induction assignments generalizing record with
  | nil => cases refused
  | cons assignment rest ih =>
      obtain ⟨name, value⟩ := assignment
      rw [Model.assignAll] at refused
      cases stored : model.setAttribute record name value with
      | error fault =>
          rw [stored] at refused
          cases refused
          exact ⟨[], name, value, rest, rfl, rfl, stored⟩
      | ok record' =>
          rw [stored] at refused
          obtain ⟨accepted, other, value', later, rfl, taken, fault⟩ := ih refused
          refine ⟨(name, value) :: accepted, other, value', later, rfl, ?_, fault⟩
          rw [Model.assignAll, stored]
          exact taken

/-- The values that attributes are to have, when every assigned value is among them: an attribute
that has its value keeps it, and all assigned ones have theirs unless one was refused. -/
theorem StoresAsGiven.assignAll (promise : model.StoresAsGiven) {record : Record}
    (makes : model.Makes record) {values : String → Value} {assignments : List (String × Value)}
    (given : ∀ assignment ∈ assignments, assignment.2 = values assignment.1) (name : String)
    (has : model.attribute? record name = some (values name) ∨
      (name ∈ assignments.map Prod.fst ∧ (model.assignAll record assignments).2 = .ok ())) :
    model.attribute? (model.assignAll record assignments).1 name = some (values name) := by
  induction assignments generalizing record with
  | nil =>
      rcases has with before | ⟨listed, -⟩
      · exact before
      · cases listed
  | cons assignment rest ih =>
      obtain ⟨other, value⟩ := assignment
      obtain rfl : value = values other := given _ List.mem_cons_self
      rw [Model.assignAll] at has ⊢
      cases stored : model.setAttribute record other (values other) with
      | error error =>
          rw [stored] at has
          rcases has with before | ⟨-, ok⟩
          · exact before
          · cases ok
      | ok record' =>
          rw [stored] at has
          have now := promise.assigned makes stored name
          refine ih (makes.assigned stored)
            (fun assignment member => given assignment (List.mem_cons_of_mem _ member)) ?_
          by_cases same : name = other
          · subst same
            exact .inl (by rw [now, if_pos rfl])
          · rcases has with before | ⟨listed, ok⟩
            · exact .inl (by rw [now, if_neg same, before])
            · exact .inr ⟨(List.mem_cons.mp listed).resolve_left same, ok⟩

/-- Different attributes that are all assigned have the values given afterwards, and the others
have theirs, however attributes are read, if this is so of single ones. -/
theorem Makes.assignAll_reads {α : Type} (read : Record → String → α) (put : Value → α)
    (assigned : ∀ {record record' : Record} {name : String} {value : Value}, model.Makes record →
      model.setAttribute record name value = .ok record' → ∀ other,
        read record' other = if other = name then put value else read record other)
    {record : Record} (makes : model.Makes record) {assignments : List (String × Value)}
    (distinct : (assignments.map Prod.fst).Nodup)
    (ok : (model.assignAll record assignments).2 = .ok ()) :
    let after := (model.assignAll record assignments).1
    (∀ assignment ∈ assignments, read after assignment.1 = put assignment.2) ∧
      ∀ name, name ∉ assignments.map Prod.fst → read after name = read record name := by
  induction assignments generalizing record with
  | nil => exact ⟨nofun, fun _ _ => rfl⟩
  | cons assignment rest ih =>
      obtain ⟨other, value⟩ := assignment
      obtain ⟨fresh, distinct⟩ := List.nodup_cons.mp distinct
      rw [Model.assignAll] at ok ⊢
      cases stored : model.setAttribute record other value with
      | error error =>
          rw [stored] at ok
          cases ok
      | ok record' =>
          rw [stored] at ok
          have now := assigned makes stored
          obtain ⟨given, kept⟩ := ih (makes.assigned stored) distinct ok
          refine ⟨List.forall_mem_cons.mpr ⟨?_, given⟩, fun name absent => ?_⟩
          · exact (kept other fresh).trans ((now other).trans (if_pos rfl))
          · obtain ⟨apart, absent⟩ := not_or.mp (List.mem_cons.not.mp absent)
            exact (kept name absent).trans ((now name).trans (if_neg apart))

theorem AssignsAsGiven.assignAll (promise : model.AssignsAsGiven) {record : Record}
    (makes : model.Makes record) {assignments : List (String × Value)}
    (distinct : (assignments.map Prod.fst).Nodup)
    (ok : (model.assignAll record assignments).2 = .ok ()) :
    let after := (model.assignAll record assignments).1
    (∀ assignment ∈ assignments, model.attribute? after assignment.1 = some assignment.2) ∧
      ∀ name, name ∉ assignments.map Prod.fst →
        model.attribute? after name = model.attribute? record name :=
  makes.assignAll_reads model.attribute? some promise distinct ok

/-! ## The ordinary behaviour -/

section Ordinary

variable {entity : Entity} {types : List (String × AttributeType)} {hidden : List String}

theorem lookup_zip (names : List String) (values : List Value) (name : String) :
    (names.zip values).lookup name =
      (names.findIdx? (· == name)).bind (values[·]?) := by
  induction names generalizing values with
  | nil => rfl
  | cons first rest ih =>
      cases values with
      | nil =>
          rw [List.zip_nil_right]
          cases (first :: rest).findIdx? (· == name) <;> rfl
      | cons value others =>
          rw [List.zip_cons_cons, List.lookup_cons, List.findIdx?_cons]
          by_cases same : name = first
          · subst same
            simp
          · rw [beq_eq_false_iff_ne.mpr same, beq_eq_false_iff_ne.mpr (Ne.symm same)]
            dsimp only
            rw [ih, if_neg Bool.false_ne_true]
            cases rest.findIdx? (· == name) <;> rfl

theorem lookup_filter (entries : List (String × Value)) (hidden : List String) (name : String) :
    (entries.filter fun entry => !hidden.contains entry.1).lookup name =
      if hidden.contains name then none else entries.lookup name := by
  induction entries with
  | nil => simp
  | cons entry rest ih =>
      obtain ⟨other, value⟩ := entry
      rw [List.filter_cons, List.lookup_cons]
      by_cases same : name = other
      · subst same
        cases concealed : hidden.contains name with
        | true =>
            rw [concealed] at ih
            exact ih
        | false => simp
      · rw [beq_eq_false_iff_ne.mpr same]
        split
        · rw [List.lookup_cons, beq_eq_false_iff_ne.mpr same]
          exact ih
        · exact ih

/-- What an ordinary model reports for an attribute: the item of the record at the position of
the attribute, unless the attribute is hidden. -/
theorem ofEntity_attribute? (record : Record) (name : String) :
    (ofEntity entity types hidden).attribute? record name =
      if hidden.contains name then none else (entity.index? name).bind (record[·]?) := by
  rw [attribute?, Entity.index?_eq_findIdx?, ← lookup_zip]
  exact lookup_filter _ _ _

theorem ofEntity_setAttribute {record record' : Record} {name : String} {value : Value}
    (ok : (ofEntity entity types hidden).setAttribute record name value = .ok record') :
    ∃ index, entity.index? name = some index ∧ record' = record.set index value := by
  simp only [ofEntity] at ok
  split at ok
  · cases ok
  · rename_i index found
    obtain ⟨stored, fits, ok⟩ := exists_of_bind_eq_ok ok
    rw [checked] at fits
    split at fits
    · obtain rfl := Except.ok.inj fits
      exact ⟨index, found, (Except.ok.inj ok).symm⟩
    · cases fits

theorem ofEntity_changesOnlyNamed : (ofEntity entity types hidden).ChangesOnlyNamed := by
  intro record record' name value ok other apart
  obtain ⟨index, found, rfl⟩ := ofEntity_setAttribute ok
  rw [ofEntity_attribute?, ofEntity_attribute?]
  cases there : entity.index? other with
  | none => rfl
  | some position =>
      have elsewhere : index ≠ position := by
        rintro rfl
        exact apart (Entity.name_eq_of_index? there found)
      simp only [Option.bind_some, List.getElem?_set_ne elsewhere]

/-! ## Ordinary models without hidden attributes -/

theorem Makes.ofEntity_length {record : Record}
    (makes : (ofEntity entity types hidden).Makes record) :
    record.length = entity.fields.length := by
  induction makes with
  | ofRow made => exact (forall₂_of_mapM_eq_ok made).length_eq.symm
  | assigned _ ok ih =>
      obtain ⟨index, -, rfl⟩ := ofEntity_setAttribute ok
      rw [List.length_set, ih]

theorem valueFrom_of_find? {row : Row} {field : Field} {given stored : Value}
    (found : row.find? field.column = some given)
    (ok : valueFrom entity types row field = .ok stored) : stored = given := by
  rw [valueFrom, found] at ok
  dsimp only at ok
  rw [checked] at ok
  split at ok
  · exact (Except.ok.inj ok).symm
  · cases ok

/-- A model with the ordinary behaviour and no hidden attribute stores what it is given. -/
theorem ofEntity_storesAsGiven : (ofEntity entity types []).StoresAsGiven where
  key := by
    intro record _
    refine List.map_congr_left fun name _ => ?_
    rw [attributeOrNull, ofEntity_attribute?]
    rfl
  selected := by
    intro row record name field value made mapped found
    obtain ⟨index, position, here⟩ := Entity.index?_of_field? mapped
    obtain ⟨inside, rfl⟩ := List.getElem?_eq_some_iff.mp here
    have stored := forall₂_of_mapM_eq_ok made
    have inside' : index < record.length := stored.length_eq ▸ inside
    have same := valueFrom_of_find? found (stored.get inside inside')
    rw [ofEntity_attribute?]
    simp only [List.contains_nil, Bool.false_eq_true, if_false]
    rw [show entity.index? name = some index from position, Option.bind_some,
      List.getElem?_eq_getElem inside']
    exact congrArg some same
  assigned := by
    intro record record' name value makes ok other
    obtain ⟨index, found, rfl⟩ := ofEntity_setAttribute ok
    by_cases same : other = name
    · subst same
      obtain ⟨field, here, -⟩ := Entity.exists_field_of_index? found
      have inside : index < record.length := by
        rw [makes.ofEntity_length]
        exact (List.getElem?_eq_some_iff.mp here).1
      rw [if_pos rfl, ofEntity_attribute?]
      simp [found, inside]
    · rw [if_neg same, ofEntity_changesOnlyNamed ok other same]

end Ordinary

end LazyMapper.Model
