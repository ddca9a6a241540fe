import LazyMapper.Proofs.Sql.Parameters
import Mathlib.Data.List.Basic

/-!
# Joining conditions

Joining is associative (`Expr.and_assoc`), so a run of conditions can be joined in any association.
A way to do it is a tree with the conditions at its leaves (`Joining`), and what comes out has the
conjuncts of the leaves from left to right (`Joining.conjuncts_joined`). Two conditions or more give
a conjunction, which is then determined (`Joining.joined_eq_all`); a single one stays what it is,
and may be no conjunction.

The text of a condition has the text of each conjunct once, in order (`Expr.build_eq_conjuncts`). A
conjunct is rendered behind the values of those before it, and stands in parentheses if it is a
conjunction itself.
-/

set_option autoImplicit false

namespace LazyMapper.Sql

/-! ## Conjuncts -/

namespace Expr

/-- **Joining conditions is associative.** -/
theorem and_assoc (first second third : Expr) :
    (first.and second).and third = first.and (second.and third) :=
  congrArg all (List.append_assoc first.conjuncts second.conjuncts third.conjuncts)

end Expr

/-- A way to join conditions: a condition stays alone, or two ways are joined. -/
inductive Joining where
  | single (condition : Expr)
  | both (left right : Joining)

namespace Joining

/-- The conditions from left to right. -/
def conditions : Joining → List Expr
  | .single condition => [condition]
  | .both left right => left.conditions ++ right.conditions

/-- What the conditions are joined to. -/
def joined : Joining → Expr
  | .single condition => condition
  | .both left right => left.joined.and right.joined

theorem conjuncts_joined (joining : Joining) :
    joining.joined.conjuncts = joining.conditions.flatMap Expr.conjuncts := by
  induction joining with
  | single condition => exact (List.append_nil _).symm
  | both left right ihLeft ihRight =>
      rw [conditions, List.flatMap_append, ← ihLeft, ← ihRight]
      rfl

/-- **Several conditions are joined to the conjunction of their conjuncts**, in every way. -/
theorem joined_eq_all {joining : Joining} (several : 2 ≤ joining.conditions.length) :
    joining.joined = .all (joining.conditions.flatMap Expr.conjuncts) := by
  rw [← conjuncts_joined]
  cases joining with
  | single condition => cases Nat.not_succ_le_self 1 several
  | both left right => rfl

/-! ## Joining from left to right -/

/-- Joining the outcomes of ways is a way. -/
theorem joined_foldl_both (first : Joining) (rest : List Joining) :
    (rest.foldl both first).joined = (rest.map joined).foldl Expr.and first.joined := by
  rw [List.foldl_map]
  exact (List.foldl_hom joined fun _ _ => rfl).symm

theorem conditions_foldl_both (first : Joining) (rest : List Joining) :
    (rest.foldl both first).conditions = (first :: rest).flatMap conditions := by
  induction rest generalizing first with
  | nil => exact (List.append_nil _).symm
  | cons next rest ih =>
      rw [List.foldl_cons, ih, List.flatMap_cons, List.flatMap_cons, List.flatMap_cons, conditions,
        List.append_assoc]

/-- Groups with several conditions between them are joined to the conjunction of the conjuncts of
these, however each group is joined. -/
theorem joined?_map_joined {groups : List Joining}
    (several : 2 ≤ (groups.flatMap conditions).length) :
    Expr.joined? (groups.map joined) =
      some (.all ((groups.flatMap conditions).flatMap Expr.conjuncts)) := by
  cases groups with
  | nil => cases several
  | cons first rest =>
      rw [← conditions_foldl_both] at several ⊢
      rw [← joined_eq_all several, joined_foldl_both]
      rfl

end Joining

/-! ## The text of a conjunction -/

theorem Fragment.toText_separated (dialect : Dialect) (separator : String)
    (fragments : List Fragment) :
    (Fragment.separated separator fragments).toText dialect =
      separator.intercalate (fragments.map (Fragment.toText dialect)) := by
  induction fragments with
  | nil => rfl
  | cons fragment rest ih =>
      cases rest with
      | nil => simp [Fragment.separated]
      | cons next rest =>
          have parts : Fragment.separated separator (fragment :: next :: rest) =
              fragment ++ .text separator :: Fragment.separated separator (next :: rest) := rfl
          rw [parts, List.map_cons, String.intercalate_cons_of_ne_nil (by simp), ← ih]
          simp [Fragment.toText, Piece.toText, String.append_assoc]

namespace Expr

variable (dialect : Dialect)

/-- The text of a part of a conjunction behind the given parameters. -/
def partText (params : List Value) (part : Expr) : String :=
  let text := (part.build dialect params).1
  if part.isConjunction then "(" ++ text ++ ")" else text

/-- The texts of the parts of a conjunction, each behind the values of the parts before it. -/
def partTexts (params : List Value) (parts : List Expr) : List String :=
  parts.mapIdx fun index part =>
    part.partText dialect (params ++ (parts.take index).flatMap values)

theorem partTexts_cons (params : List Value) (part : Expr) (rest : List Expr) :
    partTexts dialect params (part :: rest) =
      part.partText dialect params :: partTexts dialect (params ++ part.values) rest := by
  simp [partTexts, List.mapIdx_cons]

theorem toText_renderParts (params : List Value) (parts : List Expr) :
    (renderParts dialect parts params).1.map (Fragment.toText dialect) =
      partTexts dialect params parts := by
  induction parts generalizing params with
  | nil => rfl
  | cons part rest ih =>
      have text : Fragment.toText dialect (if part.isConjunction
            then parenthesise (part.render dialect params).1 else (part.render dialect params).1) =
          part.partText dialect params := by
        unfold partText build
        split <;> simp [parenthesise, Fragment.toText, Piece.toText, String.append_assoc]
      rw [renderParts, partTexts_cons, ← ih, ← render_params dialect, ← text]
      rfl

/-- **The text of a condition is that of its conjuncts**, each once and in order. -/
theorem build_eq_conjuncts (expr : Expr) (params : List Value) :
    expr.build dialect params =
      (" AND ".intercalate (partTexts dialect params expr.conjuncts), params ++ expr.values) := by
  refine Prod.ext ?_ (render_params dialect expr params)
  cases expr with
  | all parts =>
      rw [conjuncts, ← toText_renderParts, ← Fragment.toText_separated]
      rfl
  | column | bound | compare | member | isNull =>
      simp [conjuncts, partTexts, partText, isConjunction]

end Expr

end LazyMapper.Sql
