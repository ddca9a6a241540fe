import LazyMapper.Proofs.Session.Identities

/-!
# Columns of keys with dots

A select list quotes a mapped column as a whole. The queries by key hand the same column to the
conditions, which read a name with a dot as that of a table and of one of its columns. So a key
column is named in the condition as in the select list exactly when it has no dot
(`Sql.Dialect.key_columns_quoted_iff`). A mapping may declare any column: it is valid with a column
such as `meta.id`, which is then selected under this name and compared as the column `id` of a table
`meta` (`Catalogue.dotted_key_named_apart`).
-/

set_option autoImplicit false

namespace LazyMapper

/-- **Conditions quote key columns as select lists do exactly when these have no dot.** This holds
of a query by primary key, of a query for related instances, where nothing is compared when there
are no keys, and of the query that a lookup by key compiles to. -/
theorem Sql.Dialect.key_columns_quoted_iff (dialect : Sql.Dialect) :
    (∀ (entity : Entity) (columns : List String) (key : List Value),
      ((entity.queryByKey columns key).build dialect).1 =
          entity.keyQueryText dialect dialect.quote columns (entity.keyColumns key) ↔
        ∀ column ∈ entity.keyColumns key, '.' ∉ column.toList) ∧
    (∀ (plan : LoadPlan) (column : String) (keys : List Value),
      ((plan.queryRelated column keys).build dialect).1 =
          dialect.selection (plan.columnsWith column) plan.entity.table ++ " WHERE " ++
            dialect.membership dialect.quote column keys.length ↔
        keys = [] ∨ '.' ∉ column.toList) ∧
    ∀ (schema : Schema) (model : Model) (remembered after : Configured) (values : List Value)
      (options : List LoaderOption) (compiled : CompiledStatement),
      model.entity.validate = .ok () →
      model.LooksUp schema dialect remembered values options compiled after →
      ∃ plan, compiled.planFor? model.entity = some plan ∧
        (compiled.sql = model.entity.keyQueryText dialect dialect.quote plan.eagerColumns
            (model.entity.keyColumns values) ↔
          ∀ column ∈ model.entity.keyColumns values, '.' ∉ column.toList) := by
  refine ⟨fun entity columns key => ?_, fun plan column keys => ?_, ?_⟩
  · rw [entity.queryByKey_text, entity.keyQueryText_eq_iff]
  · rw [plan.queryRelated_text, String.append_right_inj, dialect.membership_eq_iff,
      List.length_eq_zero_iff]
  · intro schema model remembered after values options compiled valid looksUp
    obtain ⟨plan, found, -, build⟩ := looksUp.exists_query (Entity.valid_of_validate valid)
    refine ⟨plan, found, ?_⟩
    rw [CompiledStatement.sql, build, model.entity.queryByKey_text,
      model.entity.keyQueryText_eq_iff]

namespace Catalogue

/-- A review is looked up by two columns without dots, which are quoted. -/
theorem review_key_quoted :
    ∃ compiled after, review.entity.validate = .ok () ∧
      review.LooksUp schema .sqlite [] [.int 1, .int 2] [] compiled after ∧
      compiled.sql = reviewEntity.keyQueryText .sqlite (Sql.Dialect.quote .sqlite)
        ["seq_no", "book_id", "rating"] ["book_id", "seq_no"] ∧
      compiled.sql = "SELECT \"seq_no\", \"book_id\", \"rating\" FROM reviews " ++
        "WHERE \"book_id\" = ?1 AND \"seq_no\" = ?2" := by
  obtain ⟨-, -, lookups⟩ := Sql.Dialect.key_columns_quoted_iff .sqlite
  have looksUp : review.LooksUp schema .sqlite [] [.int 1, .int 2] [] _ _ :=
    ⟨rfl, _, rfl, rfl⟩
  obtain ⟨plan, found, quoted⟩ := lookups schema review _ _ _ _ _ rfl looksUp
  have eager : ["seq_no", "book_id", "rating"] = plan.eagerColumns :=
    Option.some.inj (congrArg (Option.map LoadPlan.eagerColumns) found)
  rw [← eager] at quoted
  exact ⟨_, _, rfl, looksUp, quoted.mpr (by decide), by decide +kernel⟩

/-- A document, whose key is stored in a column with a dot. -/
def documentEntity : Entity where
  table := "docs"
  typeName := "Doc"
  fields := [.ofColumn "id" "meta.id"]
  primaryKey := ["id"]
  relationships := []

/-- **A key column with a dot is selected under one name and compared under another.** -/
theorem dotted_key_named_apart :
    let asked := (documentEntity.queryByKey ["meta.id"] [.int 1]).build .postgres
    documentEntity.validate = .ok () ∧ documentEntity.keyColumns [.int 1] = ["meta.id"] ∧
      asked.1 = "SELECT \"meta.id\" FROM docs WHERE meta.\"id\" = $1" ∧
      asked.1 ≠ documentEntity.keyQueryText .postgres (Sql.Dialect.quote .postgres) ["meta.id"]
        ["meta.id"] := by
  refine ⟨rfl, rfl, by decide +kernel, by decide +kernel⟩

end Catalogue

end LazyMapper
