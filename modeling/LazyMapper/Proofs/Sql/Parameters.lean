import LazyMapper.Statement.Identity

/-!
# The parameters of a rendered condition

Rendering an expression appends its values to the parameters, from left to right and in every
dialect the same (`Expr.render_params`). Joining conditions joins their values. So the parameters
of a query by primary key are the values of the key (`Entity.params_queryByKey`), and those of a
query for related instances are its keys (`LoadPlan.params_queryRelated`).
-/

set_option autoImplicit false

namespace LazyMapper

namespace Sql.Expr

mutual

/-- The values of an expression from left to right. Membership in an empty list has none, not even
those of what is tested. -/
def values : Expr → List Value
  | .column _ _ => []
  | .bound value => [value]
  | .compare _ left right => left.values ++ right.values
  | .member _ [] => []
  | .member tested (first :: rest) => tested.values ++ first :: rest
  | .isNull tested => tested.values
  | .all parts => valuesOfParts parts
termination_by structural expr => expr

/-- The values of the parts of a conjunction. -/
def valuesOfParts : List Expr → List Value
  | [] => []
  | part :: rest => part.values ++ valuesOfParts rest
termination_by structural parts => parts

end

/-! ## Rendering appends values -/

theorem bindAll_params (params values : List Value) :
    (bindAll params values).2 = params ++ values := by
  induction values generalizing params with
  | nil => exact (List.append_nil params).symm
  | cons value rest ih =>
      rw [bindAll]
      exact (ih (params ++ [value])).trans (List.append_assoc params [value] rest)

mutual

/-- **Rendering an expression appends its values to the parameters.** -/
theorem render_params (dialect : Dialect) : ∀ (expr : Expr) (params : List Value),
    (expr.render dialect params).2 = params ++ expr.values
  | .column _ _, params => (List.append_nil params).symm
  | .bound _, _ => rfl
  | .compare _ left right, params => by
      simp only [render, values]
      rw [render_params dialect right, render_params dialect left, List.append_assoc]
  | .member _ [], params => (List.append_nil params).symm
  | .member tested (first :: rest), params => by
      simp only [render, values]
      rw [bindAll_params, render_params dialect tested, List.append_assoc]
  | .isNull tested, params => by
      simp only [render, values]
      exact render_params dialect tested params
  | .all parts, params => by
      simp only [render, values]
      exact renderParts_params dialect parts params

theorem renderParts_params (dialect : Dialect) : ∀ (parts : List Expr) (params : List Value),
    (renderParts dialect parts params).2 = params ++ valuesOfParts parts
  | [], params => (List.append_nil params).symm
  | part :: rest, params => by
      simp only [renderParts, valuesOfParts]
      rw [renderParts_params dialect rest, render_params dialect part, List.append_assoc]

end

/-! ## Values of joined conditions -/

theorem valuesOfParts_eq (parts : List Expr) : valuesOfParts parts = parts.flatMap values := by
  induction parts with
  | nil => rfl
  | cons part rest ih => rw [valuesOfParts, List.flatMap_cons, ih]

theorem flatMap_conjuncts (expr : Expr) : expr.conjuncts.flatMap values = expr.values := by
  cases expr with
  | all parts => exact (valuesOfParts_eq parts).symm
  | column | bound | compare | member | isNull => exact List.append_nil _

/-- The conjuncts of joined conditions. -/
theorem conjuncts_foldl_and (first : Expr) (rest : List Expr) :
    (rest.foldl Expr.and first).conjuncts = (first :: rest).flatMap conjuncts := by
  induction rest generalizing first with
  | nil => exact (List.append_nil _).symm
  | cons next rest ih =>
      rw [List.foldl_cons, ih, List.flatMap_cons, List.flatMap_cons, List.flatMap_cons,
        ← List.append_assoc]
      rfl

theorem values_foldl_and (first : Expr) (rest : List Expr) :
    (rest.foldl Expr.and first).values = (first :: rest).flatMap values := by
  rw [← flatMap_conjuncts, conjuncts_foldl_and, List.flatMap_assoc]
  simp only [flatMap_conjuncts]

/-- Conditions joined from the first to the last, if there are any. -/
def joined? : List Expr → Option Expr
  | [] => none
  | first :: rest => some (rest.foldl Expr.and first)

theorem values_joined? (conditions : List Expr) :
    ((joined? conditions).map values).getD [] = conditions.flatMap values := by
  cases conditions with
  | nil => rfl
  | cons first rest => exact values_foldl_and first rest

/-- A column compared with a value. -/
def equation (item : String × Value) : Expr := (ofColumnName item.1).equals item.2

theorem values_equation (item : String × Value) : (equation item).values = [item.2] := by
  unfold equation ofColumnName
  split <;> rfl

theorem values_member (column : String) (keys : List Value) :
    (member (ofColumnName column) keys).values = keys := by
  cases keys with
  | nil => rfl
  | cons => unfold ofColumnName; split <;> rfl

end Sql.Expr

/-- The parameters of a query are the values of its condition. -/
theorem Sql.Query.select_params (dialect : Sql.Dialect) (items : List Sql.SelectItem)
    (tables : List String) (condition? : Option Sql.Expr) :
    ((Sql.Query.select items tables condition?).build dialect).2 =
      (condition?.map Sql.Expr.values).getD [] := by
  cases condition? with
  | none => rfl
  | some condition => exact Sql.Expr.render_params dialect condition []

/-! ## Queries by key -/

namespace Entity

/-- The columns of the primary key attributes, each with its value. -/
def keyItems (entity : Entity) (key : List Value) : List (String × Value) :=
  (entity.primaryKey.zip key).map fun item => (entity.keyColumn item.1, item.2)

/-- The condition for a primary key joins one equation for each value. -/
theorem keyCondition?_eq (entity : Entity) (key : List Value) :
    entity.keyCondition? key = Sql.Expr.joined? ((entity.keyItems key).map Sql.Expr.equation) := by
  rw [keyItems, List.map_map, List.zip, List.map_zipWith]
  rfl

/-- **The parameters of a query by primary key are the values of the key**, as far as the primary
key has attributes for them. -/
theorem params_queryByKey (entity : Entity) (columns : List String) (key : List Value)
    (dialect : Sql.Dialect) :
    ((entity.queryByKey columns key).build dialect).2 =
      (entity.primaryKey.zip key).map Prod.snd := by
  have each : (fun item => (Sql.Expr.equation item).values) = fun item => [item.2] :=
    funext Sql.Expr.values_equation
  have values : ((entity.keyItems key).map Sql.Expr.equation).flatMap Sql.Expr.values =
      (entity.keyItems key).map Prod.snd := by
    rw [List.flatMap_map, each, List.map_eq_flatMap]
  rw [queryByKey, Sql.Query.select_params, keyCondition?_eq, Sql.Expr.values_joined?, values,
    keyItems, List.map_map]
  rfl

end Entity

/-- **The parameters of a query for related instances are the keys.** -/
theorem LoadPlan.params_queryRelated (plan : LoadPlan) (column : String) (keys : List Value)
    (dialect : Sql.Dialect) : ((plan.queryRelated column keys).build dialect).2 = keys :=
  (Sql.Query.select_params dialect _ _ _).trans (Sql.Expr.values_member column keys)

end LazyMapper
