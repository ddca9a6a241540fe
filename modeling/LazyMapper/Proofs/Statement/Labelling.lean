import LazyMapper.Proofs.Row.Labels
import LazyMapper.Proofs.Statement.Scoping

/-!
# Rows over two entities

A statement over several entities selects every column under the label of its table, and a row is
split by stripping one label after the other. The labels of two tables can run into one another:
the columns of `books__archive` have labels that begin like those of `books`
(`SelectItem.Collides`). A row is split into the columns of either entity, in the order of their
plans and each with its value, exactly when no column of the other entity collides
(`Statement.compile_labels`); that is so whenever neither table's label begins with the other's.
Where a column does collide, one entity is given a column of the other
(`Catalogue.archive_taken_for_book`).
-/

set_option autoImplicit false

namespace LazyMapper

namespace Sql.SelectItem

/-- The label of a column of one table begins like the labels of another one. -/
def Collides (table other column : String) : Prop :=
  (label table).toList <+: (label other ++ column).toList

instance (table other column : String) : Decidable (Collides table other column) :=
  inferInstanceAs (Decidable (_ <+: _))

/-- No column collides when neither table's label begins with the other's. -/
theorem not_collides {table other : String}
    (apart : ¬ (label table).toList <+: (label other).toList)
    (apart' : ¬ (label other).toList <+: (label table).toList) (column : String) :
    ¬ Collides table other column := by
  intro collides
  have front : (label other).toList <+: (label other ++ column).toList := by simp
  exact (List.prefix_or_prefix_of_prefix collides front).elim apart apart'

end Sql.SelectItem

open Sql (SelectItem)

/-- The row of one of two entities, when its columns stand in front of the other's or behind. -/
theorem Row.stripLabel_pair (left right : String) {names others : List String}
    {values : List Value} (full : values.length = names.length + others.length) :
    let row : Row := ⟨names.map (SelectItem.label left ++ ·) ++
      others.map (SelectItem.label right ++ ·), values⟩
    (row.stripLabel (SelectItem.label left) = ⟨names, values.take names.length⟩ ↔
      ∀ column ∈ others, ¬ SelectItem.Collides left right column) ∧
    (row.stripLabel (SelectItem.label right) = ⟨others, values.drop names.length⟩ ↔
      ∀ column ∈ names, ¬ SelectItem.Collides right left column) := by
  have front : (values.take names.length).length = names.length := by simp [full]
  have back : (values.drop names.length).length = others.length := by simp [full]
  have parts := List.take_append_drop names.length values
  have first := stripLabel_eq_iff (SelectItem.label left) [] names
    (others.map (SelectItem.label right ++ ·)) [] _ (values.drop names.length) rfl front
    (back.trans (by simp))
  have second := stripLabel_eq_iff (SelectItem.label right)
    (names.map (SelectItem.label left ++ ·)) others [] (values.take names.length) _ []
    (front.trans (by simp)) back rfl
  simp only [List.nil_append, List.append_nil, parts, List.forall_mem_map] at first second
  exact ⟨first, second⟩

namespace Statement

theorem resultName_selectItems (plans : List LoadPlan) :
    (selectItems true plans).map SelectItem.resultName = plans.flatMap fun plan =>
      plan.eagerColumns.map (SelectItem.label plan.entity.table ++ ·) := by
  simp [selectItems, List.map_flatMap, Function.comp_def, SelectItem.resultName]

/-- **A row over two entities is split as it was labelled.** What is stripped for either entity are
the columns loaded with it, in the order of its plan and with the values at their positions,
exactly when no column of the other entity collides. None does when neither table's label begins
with the other's. -/
theorem compile_labels {schema : Schema} {dialect : Sql.Dialect} {statement : Statement}
    {remembered after : Configured} {compiled : CompiledStatement}
    (ran : (statement.compile schema dialect).run.run remembered = (.ok compiled, after))
    {left right : Entity} (pair : statement.entities = [left, right])
    (tables : left.table ≠ right.table) {row : Row}
    (labels : row.columns = compiled.query.items.map SelectItem.resultName)
    (full : row.values.length = row.columns.length) :
    ∃ leftPlan rightPlan, compiled.plans = [leftPlan, rightPlan] ∧
      compiled.planFor? left = some leftPlan ∧ compiled.planFor? right = some rightPlan ∧
      let leftRow := row.stripLabel (SelectItem.label left.table)
      let rightRow := row.stripLabel (SelectItem.label right.table)
      let ownLeft : Row :=
        ⟨leftPlan.eagerColumns, row.values.take leftPlan.eagerColumns.length⟩
      let ownRight : Row :=
        ⟨rightPlan.eagerColumns, row.values.drop leftPlan.eagerColumns.length⟩
      (leftRow = ownLeft ↔
        ∀ column ∈ rightPlan.eagerColumns, ¬ SelectItem.Collides left.table right.table column) ∧
      (rightRow = ownRight ↔
        ∀ column ∈ leftPlan.eagerColumns, ¬ SelectItem.Collides right.table left.table column) ∧
      (¬ (SelectItem.label left.table).toList <+: (SelectItem.label right.table).toList →
        ¬ (SelectItem.label right.table).toList <+: (SelectItem.label left.table).toList →
        leftRow = ownLeft ∧ rightRow = ownRight) := by
  have made : Configuring.Checks (fun _ => True) (statement.compile schema dialect) remembered _ :=
    statement.compile_checks (fun _ _ _ => trivial) dialect fun _ _ => trivial
  unfold Configuring.Checks Ends at made
  rw [ran] at made
  obtain ⟨-, compiles, -⟩ := made
  have planned := compiles.plans
  rw [pair] at planned
  obtain ⟨leftPlan, plans, ofLeft, others, both⟩ := List.forall₂_cons_left_iff.mp planned
  obtain ⟨rightPlan, more, ofRight, none, rfl⟩ := List.forall₂_cons_left_iff.mp others
  obtain rfl := List.forall₂_nil_left_iff.mp none
  refine ⟨leftPlan, rightPlan, both, ?_, ?_, ?_⟩
  · simp [CompiledStatement.planFor?, both, ofLeft.owner, Entity.beq_self]
  · have other : (left == right) = false :=
      Bool.eq_false_iff.mpr fun alike => tables (Entity.table_eq_of_beq alike)
    simp [CompiledStatement.planFor?, both, ofLeft.owner, ofRight.owner, other, Entity.beq_self]
  have columns : row.columns = leftPlan.eagerColumns.map (SelectItem.label left.table ++ ·) ++
      rightPlan.eagerColumns.map (SelectItem.label right.table ++ ·) := by
    rw [labels, compiles.query, query, pair, both]
    simpa [ofLeft.owner, ofRight.owner] using resultName_selectItems [leftPlan, rightPlan]
  obtain ⟨_, values⟩ := row
  obtain rfl := columns
  obtain ⟨first, second⟩ := Row.stripLabel_pair left.table right.table
    (show values.length = leftPlan.eagerColumns.length + rightPlan.eagerColumns.length by
      simpa using full)
  exact ⟨first, second, fun apart apart' =>
    ⟨first.mpr fun column _ => SelectItem.not_collides apart apart' column,
      second.mpr fun column _ => SelectItem.not_collides apart' apart column⟩⟩

end Statement

/-! ## Two pairs of entities -/

namespace Catalogue

/-- Rows over books and authors are split. -/
theorem book_and_author_split :
    let statement := (Statement.ofEntity bookEntity).addEntity authorEntity
    let row : Row := ⟨["books__id", "books__title", "books__isbn", "books__author_id",
      "authors__id", "authors__name"], [.bigInt 1, .text "Emma", .text "0141439580", .bigInt 7,
      .bigInt 7, .text "Austen"]⟩
    ∃ compiled after, (statement.compile schema .postgres).run.run [] = (.ok compiled, after) ∧
      row.columns = compiled.query.items.map SelectItem.resultName ∧
      row.stripLabel (SelectItem.label "books") =
        ⟨["id", "title", "isbn", "author_id"],
          [.bigInt 1, .text "Emma", .text "0141439580", .bigInt 7]⟩ ∧
      row.stripLabel (SelectItem.label "authors") =
        ⟨["id", "name"], [.bigInt 7, .text "Austen"]⟩ := by
  intro statement row
  obtain ⟨compiled, after, ran, labels, books, authors⟩ : ∃ compiled after,
      (statement.compile schema .postgres).run.run [] = (.ok compiled, after) ∧
      row.columns = compiled.query.items.map SelectItem.resultName ∧
      (compiled.planFor? bookEntity).map LoadPlan.eagerColumns =
        some ["id", "title", "isbn", "author_id"] ∧
      (compiled.planFor? authorEntity).map LoadPlan.eagerColumns = some ["id", "name"] :=
    ⟨_, _, rfl, rfl, rfl, rfl⟩
  obtain ⟨bookPlan, authorPlan, -, foundBook, foundAuthor, -, -, split⟩ :=
    Statement.compile_labels ran rfl (by decide) labels rfl
  rw [foundBook, Option.map_some] at books
  rw [foundAuthor, Option.map_some] at authors
  rw [Option.some.inj books, Option.some.inj authors] at split
  exact ⟨compiled, after, ran, labels, split (by decide) (by decide)⟩

/-- Books that are no longer sold. -/
def archiveEntity : Entity :=
  ⟨"books__archive", "Archive", [idField], ["id"], []⟩

/-- **The archive's key is taken for a column of the books.** -/
theorem archive_taken_for_book :
    let statement := (Statement.ofEntity archiveEntity).addEntity bookEntity
    let row : Row := ⟨["books__archive__id", "books__id", "books__title", "books__isbn",
      "books__author_id"], [.bigInt 9, .bigInt 1, .text "Emma", .text "0141439580", .bigInt 7]⟩
    ∃ compiled after plan,
      (statement.compile schema .postgres).run.run [] = (.ok compiled, after) ∧
      statement.entities = [archiveEntity, bookEntity] ∧
      archiveEntity.table ≠ bookEntity.table ∧
      row.columns = compiled.query.items.map SelectItem.resultName ∧
      compiled.planFor? bookEntity = some plan ∧
      plan.eagerColumns = ["id", "title", "isbn", "author_id"] ∧
      (row.stripLabel (SelectItem.label bookEntity.table)).columns =
        ["archive__id", "id", "title", "isbn", "author_id"] :=
  ⟨_, _, _, rfl, rfl, by decide, rfl, rfl, rfl, rfl⟩

end Catalogue

end LazyMapper
