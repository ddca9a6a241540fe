import LazyMapper.Model.Catalogue
import LazyMapper.Proofs.Sql.Conjunctions
import LazyMapper.Proofs.Sql.SelectList
import LazyMapper.Proofs.Statement.Checking

/-!
# Filters of a statement

A statement joins its filters from the first to the last (`Statement.foldl_filter`), and a condition
shows in the query that it compiles to and nowhere else (`Statement.compile_filtered`). Joining is
associative, so it makes no difference whether conditions are given one by one or whether runs of
them are joined beforehand: what is stored is the conjunction of their conjuncts in order, and the
text has each of these once (`Statement.filters_accumulate`).

Two conditions are needed for this. A single one is stored as it is, and need not be a conjunction.
-/

set_option autoImplicit false

namespace LazyMapper

open Sql (Expr Joining)

/-! ## The text of a condition in a query -/

namespace Sql.Query

variable (dialect : Dialect)

/-- The text of a query in front of its condition. -/
def frontText (query : Query) : String :=
  "SELECT " ++ query.selectListText dialect ++ " FROM " ++ ", ".intercalate query.tables

/-- The text of a query behind its condition. -/
def backText (query : Query) : String :=
  Fragment.toText dialect (renderOrder dialect query.order ++ renderLimit query.limit?)

/-- The condition stands between the tables and the order, and its values are the parameters. -/
theorem build_conditioned (query : Query) (condition : Expr) :
    ({ query with condition? := some condition } : Query).build dialect =
      (query.frontText dialect ++ " WHERE " ++ (condition.build dialect []).1 ++
        query.backText dialect, (condition.build dialect []).2) := by
  refine Prod.ext ?_ rfl
  rw [build_text]
  simp [clausesText, frontText, backText, renderCondition, selectListText, Expr.build,
    Fragment.toText, Piece.toText, String.append_assoc]

end Sql.Query

/-! ## Filters in sequence -/

namespace Statement

variable {statement : Statement}

theorem filter_eq {before : List Expr} (given : statement.filter? = Expr.joined? before)
    (condition : Expr) : statement.filter condition =
      { statement with filter? := Expr.joined? (before ++ [condition]) } := by
  cases before with
  | nil => simp [filter, given, Expr.joined?]
  | cons first rest => simp [filter, given, Expr.joined?]

/-- Filters are joined with those given before, from the first to the last. -/
theorem foldl_filter {before : List Expr} (given : statement.filter? = Expr.joined? before)
    (conditions : List Expr) : conditions.foldl filter statement =
      { statement with filter? := Expr.joined? (before ++ conditions) } := by
  induction conditions generalizing statement before with
  | nil => rw [List.foldl_nil, List.append_nil, ← given]
  | cons condition rest ih =>
      rw [List.foldl_cons, ih (congrArg filter? (filter_eq given condition)), filter_eq given,
        List.append_assoc, List.singleton_append]

theorem filter?_eq_joined? (statement : Statement) :
    statement.filter? = Expr.joined? statement.filter?.toList := by
  cases statement.filter? <;> rfl

/-- However filters are joined beforehand, the conjunction of all conjuncts is stored. -/
theorem foldl_filter_joined {groups : List Joining}
    (several : 2 ≤ (statement.filter?.toList ++ groups.flatMap Joining.conditions).length) :
    (groups.map Joining.joined).foldl filter statement =
      { statement with
        filter? := some (.all ((statement.filter?.toList ++
          groups.flatMap Joining.conditions).flatMap Expr.conjuncts)) } := by
  -- The filter given before is one more group in front.
  have conditions : (statement.filter?.toList.map Joining.single ++ groups).flatMap
      Joining.conditions = statement.filter?.toList ++ groups.flatMap Joining.conditions := by
    cases statement.filter? <;> rfl
  have joined : (statement.filter?.toList.map Joining.single ++ groups).map Joining.joined =
      statement.filter?.toList ++ groups.map Joining.joined := by
    cases statement.filter? <;> rfl
  rw [← conditions] at several ⊢
  rw [foldl_filter statement.filter?_eq_joined?, ← joined, Joining.joined?_map_joined several]

/-! ## Filters in the query -/

/-- A condition shows in the query of a compiled statement, and nowhere else. -/
theorem compile_filtered {schema : Schema} {dialect : Sql.Dialect} {remembered after : Configured}
    {compiled : CompiledStatement}
    (ran : (statement.compile schema dialect).run.run remembered = (.ok compiled, after))
    (filter? : Option Expr) :
    (({ statement with filter? } : Statement).compile schema dialect).run.run remembered =
      (.ok { compiled with query := { compiled.query with condition? := filter? } }, after) := by
  have mapped : ({ statement with filter? } : Statement).compile schema dialect =
      (fun compiled : CompiledStatement =>
        { compiled with query := { compiled.query with condition? := filter? } }) <$>
          statement.compile schema dialect := by
    unfold compile
    simp only [map_bind, map_pure]
    rfl
  rw [mapped, ExceptT.run_map, StateT.run_map, ran]
  rfl

/-- **Filters accumulate without loss or regrouping.** Joining is associative. Let several
conditions be given to a statement, counting the one it has. Whether they are given one by one, or
in groups that are joined beforehand in any way, the conjunction of their conjuncts is stored. If
the statement compiles, it does so with them, to a text that has each conjunct once and in order,
with the values of the conjuncts as parameters. -/
theorem filters_accumulate :
    (∀ first second third : Expr, (first.and second).and third = first.and (second.and third)) ∧
      ∀ (statement : Statement) (conditions : List Expr) (groups : List Joining),
        2 ≤ (statement.filter?.toList ++ conditions).length →
        groups.flatMap Joining.conditions = conditions →
        let filtered := (groups.map Joining.joined).foldl filter statement
        let conjuncts := (statement.filter?.toList ++ conditions).flatMap Expr.conjuncts
        filtered = conditions.foldl filter statement ∧
          filtered = { statement with filter? := some (.all conjuncts) } ∧
          ∀ (schema : Schema) (dialect : Sql.Dialect) (remembered after : Configured)
            (compiled : CompiledStatement),
            (statement.compile schema dialect).run.run remembered = (.ok compiled, after) →
            ∃ result, (filtered.compile schema dialect).run.run remembered = (.ok result, after) ∧
              result.sql = compiled.query.frontText dialect ++ " WHERE " ++
                " AND ".intercalate (Expr.partTexts dialect [] conjuncts) ++
                compiled.query.backText dialect ∧
              result.params = conjuncts.flatMap Expr.values := by
  refine ⟨Expr.and_assoc, ?_⟩
  rintro statement conditions groups several rfl filtered conjuncts
  have stored : filtered = { statement with filter? := some (.all conjuncts) } :=
    foldl_filter_joined several
  refine ⟨stored.trans ?_, stored, ?_⟩
  · -- One by one, every condition is a group of its own.
    have alone (conditions : List Expr) :
        (conditions.map Joining.single).flatMap Joining.conditions = conditions ∧
          (conditions.map Joining.single).map Joining.joined = conditions := by
      rw [List.flatMap_map, List.map_map]
      exact ⟨List.flatMap_singleton' conditions, List.map_id conditions⟩
    obtain ⟨same, joined⟩ := alone (groups.flatMap Joining.conditions)
    rw [← same] at several
    have one := foldl_filter_joined several
    rw [joined, same] at one
    exact one.symm
  · intro schema dialect remembered after compiled ran
    obtain rfl := (compiles_of_run ran).dialect
    have built := compiled.query.build_conditioned compiled.dialect (.all conjuncts)
    rw [Expr.build_eq_conjuncts] at built
    have filteredRan := compile_filtered ran (some (.all conjuncts))
    rw [← stored] at filteredRan
    exact ⟨_, filteredRan, congrArg Prod.fst built,
      (congrArg Prod.snd built).trans (Expr.valuesOfParts_eq conjuncts)⟩

end Statement

open Catalogue in
/-- Three conditions, of which the last two are joined beforehand. The second has two conjuncts, and
one of these is a conjunction, which keeps its parentheses. -/
theorem Catalogue.books_filtered_in_groups :
    let title := (Expr.ofColumnName "title").equals (.text "Emma")
    let unnumbered := Expr.all [.isNull (.ofColumnName "isbn"),
      .all [(Expr.ofColumnName "author_id").equals (.int 3)]]
    let listed := Expr.member (.ofColumnName "id") [.int 1, .int 2]
    let groups := [Joining.single title, .both (.single unnumbered) (.single listed)]
    let statement := (Statement.ofEntity bookEntity).limit 5
    let filtered := (groups.map Joining.joined).foldl Statement.filter statement
    filtered = [title, unnumbered, listed].foldl Statement.filter statement ∧
      ∃ result after, (filtered.compile schema .postgres).run.run [] = (.ok result, after) ∧
        result.sql = "SELECT \"id\", \"title\", \"isbn\", \"author_id\" FROM books WHERE " ++
          "\"title\" = $1 AND \"isbn\" IS NULL AND (\"author_id\" = $2) AND " ++
          "\"id\" IN ($3, $4) LIMIT 5" ∧
        result.params = [.text "Emma", .int 3, .int 1, .int 2] := by
  intro title unnumbered listed groups statement filtered
  have ran : (statement.compile schema .postgres).run.run [] = (.ok _, _) := rfl
  obtain ⟨same, -, compiles⟩ := Statement.filters_accumulate.2 statement
    [title, unnumbered, listed] groups (by decide) rfl
  obtain ⟨result, filteredRan, sql, params⟩ := compiles schema .postgres [] _ _ ran
  exact ⟨same, result, _, filteredRan, sql.trans (by decide +kernel), params⟩

end LazyMapper
