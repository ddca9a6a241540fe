import LazyMapper.Proofs.Sql.SelectList
import LazyMapper.Proofs.Statement.Scoping

/-!
# The select list of a statement

Plans of valid mappings select, field by field in the order of their declaration, the columns of
the attributes whose mode is eager (`LoadPlan.Suits.eagerColumns_eq`). A statement selects these
entity by entity (`Statement.items_eq`), the primary keys always among them, since a plan loads the
key with the row whatever the options are (`Statement.exists_key_mem_eagerItems`).

The columns of a statement over one entity stand under their own names, and whatever characters
these have, the names are read back off the text of the query
(`Statement.select_list_reads_back`).
-/

set_option autoImplicit false

namespace LazyMapper

/-! ## Eager attributes -/

namespace LoadPlan

/-- An attribute that is loaded with the row has a position, and its column is selected. -/
theorem exists_of_isEager {plan : LoadPlan} {name : String} (eager : plan.isEager name) :
    ∃ index planned, plan.index? name = some index ∧ plan.attributes[index]? = some planned ∧
      planned.column ∈ plan.eagerColumns := by
  obtain ⟨mode, found, loaded⟩ := (Option.any_eq_true _ _).mp eager
  obtain ⟨planned, first, rfl⟩ := Option.map_eq_some_iff.mp found
  obtain ⟨named, index, inside, here, earlier⟩ := List.find?_eq_some_iff_getElem.mp first
  refine ⟨index, planned, List.findIdx?_eq_some_iff_getElem.mpr ⟨inside, ?_, ?_⟩, ?_, ?_⟩
  · rwa [here]
  · intro before lower
    simpa using earlier before lower
  · rw [List.getElem?_eq_getElem inside, here]
  · exact List.mem_map_of_mem
      (List.mem_filter.mpr ⟨List.mem_of_find?_eq_some first, loaded⟩)

namespace Suits

variable {plan : LoadPlan} {entity : Entity}

/-- An attribute is found under its name. -/
theorem attribute?_eq (suits : plan.Suits entity) (valid : entity.Valid)
    {planned : PlannedAttribute} (member : planned ∈ plan.attributes) :
    plan.attribute? planned.name = some planned := by
  have distinct : (plan.attributes.map PlannedAttribute.name).Nodup :=
    suits.names ▸ valid.distinct
  obtain ⟨found, lookup⟩ : ∃ found, plan.attribute? planned.name = some found := by
    rw [← Option.isSome_iff_exists, attribute?, List.find?_isSome]
    exact ⟨planned, member, beq_self_eq_true _⟩
  have named : found.name = planned.name := by simpa using List.find?_some lookup
  rw [lookup, List.inj_on_of_nodup_map distinct (List.mem_of_find?_eq_some lookup) member named]

/-- **The columns selected for an entity** are those of the fields whose mode is eager, in the
order of their declaration. -/
theorem eagerColumns_eq (suits : plan.Suits entity) (valid : entity.Valid) :
    plan.eagerColumns =
      (entity.fields.filter fun field => plan.isEager field.name).map Field.column := by
  have pairs : plan.attributes.map (fun planned => (planned.name, planned.column)) =
      entity.fields.map fun field => (field.name, field.column) := by
    rw [← List.zip_map', ← List.zip_map', suits.names, suits.columns]
  have modes : ∀ planned ∈ plan.attributes,
      planned.mode.isEager = plan.isEager planned.name := by
    intro planned member
    rw [isEager, mode?, suits.attribute?_eq valid member]
    rfl
  have selected := congrArg (fun pairs => (pairs.filter (plan.isEager ·.1)).map Prod.snd) pairs
  simp only [List.filter_map, List.map_map] at selected
  rw [eagerColumns, eagerAttributes, List.filter_congr modes]
  exact selected

/-- An attribute of the primary key is loaded with the row. -/
theorem isEager_of_key (suits : plan.Suits entity) (valid : entity.Valid) {name : String}
    {field : Field} (found : entity.field? name = some field) (key : name ∈ entity.primaryKey) :
    plan.isEager name := by
  obtain rfl := Entity.name_of_field? found
  obtain ⟨index, here⟩ := List.mem_iff_getElem?.mp (Entity.mem_of_field? found)
  obtain ⟨planned, there, named, -⟩ := suits.exists_planned here
  have member := List.mem_of_getElem? there
  have eager := suits.keyed planned member (List.contains_iff_mem.mpr (named ▸ key))
  rw [isEager, mode?, ← named, suits.attribute?_eq valid member, Option.map_some, eager]
  rfl

end Suits

end LoadPlan

/-! ## Select lists -/

namespace Statement

/-- The item of a select list for a column of an entity. -/
def item (statement : Statement) (entity : Entity) (column : String) : Sql.SelectItem :=
  if 1 < statement.entities.length then .labelled entity.table column else .plain column

/-- The items for the attributes whose mode is eager, entity by entity, and for each of these field
by field in the order of their declaration. -/
def eagerItems (statement : Statement) (plans : List LoadPlan) : List Sql.SelectItem :=
  (statement.entities.zip plans).flatMap fun (entity, plan) =>
    (entity.fields.filter fun field => plan.isEager field.name).map fun field =>
      statement.item entity field.column

/-- What is written for the columns selected for each of several entities. -/
theorem flatMap_eagerColumns {α : Type} {entities : List Entity} {plans : List LoadPlan}
    (planned : List.Forall₂ (fun entity plan => plan.Suits entity) entities plans)
    (valid : ∀ entity ∈ entities, entity.Valid) (write : Entity → String → α) :
    (plans.flatMap fun plan => plan.eagerColumns.map (write plan.entity)) =
      (entities.zip plans).flatMap fun (entity, plan) =>
        (entity.fields.filter fun field => plan.isEager field.name).map fun field =>
          write entity field.column := by
  induction planned with
  | nil => rfl
  | cons suits _ ih =>
      obtain ⟨first, others⟩ := List.forall_mem_cons.mp valid
      rw [List.flatMap_cons, List.zip_cons_cons, List.flatMap_cons, ih others,
        suits.eagerColumns_eq first, List.map_map, suits.owner]
      rfl

/-- **The select list of a compiled statement** has the items of its eager attributes. -/
theorem items_eq {statement : Statement} {dialect : Sql.Dialect} {compiled : CompiledStatement}
    (compiles : compiled.Compiles dialect statement)
    (valid : ∀ entity ∈ statement.entities, entity.Valid) :
    compiled.query.items = statement.eagerItems compiled.plans := by
  rw [compiles.query]
  simp only [query, selectItems, decide_eq_true_eq]
  exact flatMap_eagerColumns compiles.plans valid statement.item

/-- The select list has the columns of all primary keys. -/
theorem exists_key_mem_eagerItems {statement : Statement} {plans : List LoadPlan}
    (planned : List.Forall₂ (fun entity plan => plan.Suits entity) statement.entities plans)
    {entity : Entity} (member : entity ∈ statement.entities) (valid : entity.Valid) {name : String}
    (key : name ∈ entity.primaryKey) :
    ∃ field, entity.field? name = some field ∧
      statement.item entity field.column ∈ statement.eagerItems plans := by
  obtain ⟨field, found⟩ := Option.isSome_iff_exists.mp (valid.keyed name key)
  obtain ⟨index, here⟩ := List.mem_iff_getElem?.mp member
  obtain ⟨inside, rfl⟩ := List.getElem?_eq_some_iff.mp here
  have inside' : index < plans.length := by rwa [← planned.length_eq]
  have suits := planned.get inside inside'
  refine ⟨field, found, List.mem_flatMap.mpr ⟨(statement.entities[index], plans[index]), ?_, ?_⟩⟩
  · exact List.mem_iff_getElem?.mpr ⟨index, List.getElem?_zip_eq_some.mpr
      ⟨List.getElem?_eq_getElem inside, List.getElem?_eq_getElem inside'⟩⟩
  · refine List.mem_map_of_mem (List.mem_filter.mpr ⟨Entity.mem_of_field? found, ?_⟩)
    rw [Entity.name_of_field? found]
    exact suits.isEager_of_key valid found key

end Statement

/-! ## Statements over one entity -/

/-- A statement over one entity selects the columns that the plan of the entity loads with the
row. -/
theorem CompiledStatement.Compiles.exists_plan {compiled : CompiledStatement}
    {dialect : Sql.Dialect} {statement : Statement} (compiles : compiled.Compiles dialect statement)
    {entity : Entity} (only : statement.entities = [entity]) :
    ∃ plan, compiled.planFor? entity = some plan ∧ plan.Suits entity ∧
      compiled.query = ⟨plan.eagerColumns.map .plain, [entity.table], statement.filter?,
        statement.order, statement.limit?⟩ := by
  have planned := compiles.plans
  rw [only] at planned
  obtain ⟨plan, plans, suits, none, single⟩ := List.forall₂_cons_left_iff.mp planned
  obtain rfl := List.forall₂_nil_left_iff.mp none
  refine ⟨plan, ?_, suits, ?_⟩
  · simp [planFor?, single, suits.owner, Entity.beq_self]
  · rw [compiles.query, Statement.query, single, only]
    simp [Statement.selectItems]

namespace Statement

/-- **Identifiers are read back off the text of a query.** Reading a quoted identifier accepts
exactly what quoting writes, and leaves what stands behind it. So the select list of a statement
over one entity is read back as the columns that the plan of the entity loads with the row,
whatever characters these have. -/
theorem select_list_reads_back (dialect : Sql.Dialect) :
    (∀ text name rest : String, dialect.readIdentifier text = some (name, rest) ↔
      text = dialect.quote name ++ rest ∧ rest.toList.head? ≠ some dialect.quoteMark) ∧
    ∀ (schema : Schema) (statement : Statement) (entity : Entity) (compiled : CompiledStatement)
      (remembered after : Configured), statement.entities = [entity] →
      (statement.compile schema dialect).run.run remembered = (.ok compiled, after) →
      ∃ plan, compiled.planFor? entity = some plan ∧ plan.Suits entity ∧
        dialect.readSelectList compiled.sql = some (plan.eagerColumns,
          " FROM " ++ entity.table ++ compiled.query.clausesText dialect) := by
  refine ⟨fun _ _ _ => dialect.readIdentifier_eq_some_iff, ?_⟩
  intro schema statement entity compiled remembered after only ran
  have compiles := compiles_of_run ran
  obtain ⟨plan, found, suits, query⟩ := compiles.exists_plan only
  have read := Sql.Query.readSelectList_build dialect (congrArg Sql.Query.items query)
  rw [congrArg Sql.Query.tables query, String.intercalate_singleton] at read
  refine ⟨plan, found, suits, ?_⟩
  rw [CompiledStatement.sql, CompiledStatement.build, compiles.dialect]
  exact read

end Statement

namespace Catalogue

/-- Columns with marks at either end, with what separates columns, and with what ends a list. -/
def quotedEntity : Entity where
  table := "quotes"
  typeName := "Quote"
  fields := [idField, .ofColumn "front" "\"a", .ofColumn "list" "b\", \"c",
    .ofColumn "clause" "d\" FROM books", .ofColumn "marks" "\"\"", .ofColumn "none" ""]
  primaryKey := ["id"]
  relationships := []

/-- Marks, commas and keywords in names are read back. -/
theorem quoted_columns_read_back :
    let statement := ((Statement.ofEntity quotedEntity).withOptions
      [LoaderOption.defer "clause"]).limit 5
    ∃ compiled after, statement.entities = [quotedEntity] ∧
      (statement.compile schema .postgres).run.run [] = (.ok compiled, after) ∧
      compiled.sql =
        "SELECT \"id\", \"\"\"a\", \"b\"\", \"\"c\", \"\"\"\"\"\", \"\" FROM quotes LIMIT 5" ∧
      Sql.Dialect.postgres.readSelectList compiled.sql =
        some (["id", "\"a", "b\", \"c", "\"\"", ""], " FROM quotes LIMIT 5") := by
  intro statement
  obtain ⟨compiled, after, ran, text, columns, clauses⟩ : ∃ compiled after,
      (statement.compile schema .postgres).run.run [] = (.ok compiled, after) ∧
      compiled.sql =
        "SELECT \"id\", \"\"\"a\", \"b\"\", \"\"c\", \"\"\"\"\"\", \"\" FROM quotes LIMIT 5" ∧
      (compiled.planFor? quotedEntity).map LoadPlan.eagerColumns =
        some ["id", "\"a", "b\", \"c", "\"\"", ""] ∧
      compiled.query.clausesText .postgres = " LIMIT 5" :=
    ⟨_, _, rfl, by decide +kernel, by decide +kernel, by decide +kernel⟩
  obtain ⟨-, decoded⟩ := Statement.select_list_reads_back .postgres
  obtain ⟨plan, found, -, read⟩ := decoded schema statement quotedEntity compiled [] after rfl ran
  rw [found, Option.map_some, Option.some.injEq] at columns
  rw [columns, clauses] at read
  exact ⟨compiled, after, rfl, ran, text, read⟩

end Catalogue

end LazyMapper
