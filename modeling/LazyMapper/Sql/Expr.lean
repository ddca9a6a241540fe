import LazyMapper.Sql.Dialect
import LazyMapper.Text.Dotted
import LazyMapper.Value.Basic

/-!
# Conditions

The expressions of a `WHERE` clause, and how they become SQL text with parameters. Values never
stand in the text: each is appended to the parameters and a placeholder with its number stands
for it. A rendered expression is therefore a list of pieces, texts and placeholders, and its
text in a dialect writes the placeholders out.
-/

set_option autoImplicit false

namespace LazyMapper.Sql

/-! ## Texts with placeholders -/

/-- A piece of a SQL text. -/
inductive Piece where
  | text (content : String)
  /-- The parameter of the number, counted from one. -/
  | placeholder (number : Nat)
deriving DecidableEq, Repr

/-- A SQL text with placeholders. -/
abbrev Fragment := List Piece

/-- The text of a piece. -/
def Piece.toText (dialect : Dialect) : Piece → String
  | .text content => content
  | .placeholder number => dialect.placeholder number

/-- The text of a fragment. -/
def Fragment.toText (dialect : Dialect) (fragment : Fragment) : String :=
  String.join (fragment.map (Piece.toText dialect))

/-- Fragments with a text between each two of them. -/
def Fragment.separated (separator : String) : List Fragment → Fragment
  | [] => []
  | [fragment] => fragment
  | fragment :: rest => fragment ++ .text separator :: separated separator rest

/-! ## Expressions -/

/-- The comparisons. -/
inductive Comparison where
  | eq
  | ne
  | lt
  | le
  | gt
  | ge
deriving DecidableEq, Repr

/-- The sign of a comparison. -/
def Comparison.sign : Comparison → String
  | .eq => "="
  | .ne => "<>"
  | .lt => "<"
  | .le => "<="
  | .gt => ">"
  | .ge => ">="

/-- An expression of a `WHERE` clause. -/
inductive Expr where
  | column (table? : Option String) (name : String)
  | bound (value : Value)
  | compare (comparison : Comparison) (left right : Expr)
  /-- The expression is equal to one of the values. -/
  | member (tested : Expr) (values : List Value)
  | isNull (tested : Expr)
  /-- All parts hold. -/
  | all (parts : List Expr)

namespace Expr

/-- The column that a text names: what stands before its first dot, if it has one, is the
table. -/
def ofColumnName (text : String) : Expr :=
  match Text.splitFirstDot text.toList with
  | some (table, name) => .column (some (String.ofList table)) (String.ofList name)
  | none => .column none text

/-- The expression compared with a value. -/
def compareValue (expr : Expr) (comparison : Comparison) (value : Value) : Expr :=
  .compare comparison expr (.bound value)

/-- The expression is equal to a value. -/
def equals (expr : Expr) (value : Value) : Expr := expr.compareValue .eq value

/-- The parts of a conjunction; any other expression is its own only part. -/
def conjuncts : Expr → List Expr
  | .all parts => parts
  | expr => [expr]

/-- Both expressions hold. Conjunctions are not nested but joined. -/
def and (left right : Expr) : Expr := .all (left.conjuncts ++ right.conjuncts)

/-! ## Rendering -/

/-- The parameters with one more, and the placeholder for it. -/
def bind (params : List Value) (value : Value) : Fragment × List Value :=
  ([.placeholder (params.length + 1)], params ++ [value])

/-- The parameters with more of them, and the placeholders for these. -/
def bindAll (params : List Value) : List Value → List Fragment × List Value
  | [] => ([], params)
  | value :: rest =>
    let (first, params) := bind params value
    let (others, params) := bindAll params rest
    (first :: others, params)

/-- The expression is a conjunction, which stands in parentheses inside another one. -/
def isConjunction : Expr → Bool
  | .all _ => true
  | _ => false

/-- The fragment in parentheses. -/
def parenthesise (fragment : Fragment) : Fragment :=
  .text "(" :: fragment ++ [.text ")"]

mutual

/-- The fragment of an expression behind the given parameters, and the parameters with those of
the expression. Membership in an empty list is false whatever is tested, which is not
rendered. -/
def render (dialect : Dialect) : Expr → List Value → Fragment × List Value
  | .column table? name, params => ([.text (dialect.column table? name)], params)
  | .bound value, params => bind params value
  | .compare comparison left right, params =>
    let (leftFragment, params) := left.render dialect params
    let (rightFragment, params) := right.render dialect params
    (leftFragment ++ .text (" " ++ comparison.sign ++ " ") :: rightFragment, params)
  | .member _ [], params => ([.text "1 = 0"], params)
  | .member tested (first :: rest), params =>
    let (fragment, params) := tested.render dialect params
    let (placeholders, params) := bindAll params (first :: rest)
    (fragment ++ .text " IN (" :: Fragment.separated ", " placeholders ++ [.text ")"], params)
  | .isNull tested, params =>
    let (fragment, params) := tested.render dialect params
    (fragment ++ [.text " IS NULL"], params)
  | .all parts, params =>
    let (fragments, params) := renderParts dialect parts params
    (Fragment.separated " AND " fragments, params)
termination_by structural expr => expr

/-- The fragments of the parts of a conjunction. -/
def renderParts (dialect : Dialect) : List Expr → List Value → List Fragment × List Value
  | [], params => ([], params)
  | part :: rest, params =>
    let (fragment, params) := part.render dialect params
    let (fragments, params) := renderParts dialect rest params
    ((if part.isConjunction then parenthesise fragment else fragment) :: fragments, params)
termination_by structural parts => parts

end

/-- The SQL text of an expression and the parameters, those of the expression behind the given
ones. -/
def build (dialect : Dialect) (expr : Expr) (params : List Value) : String × List Value :=
  let (fragment, params) := expr.render dialect params
  (fragment.toText dialect, params)

end Expr

end LazyMapper.Sql
