import LazyMapper.Proofs.Sql.Tokens

/-!
# The meaning of a condition can be read off its tokens

An interpretation fixes what columns, constants, comparisons, membership and `IS NULL` mean, and
which meanings hold; a conjunction holds when all its parts do. SQL's own logic with three truth
values is one (`Interpretation.sql`).

A condition is read from left to right: `IS NULL`, `IN` and comparisons apply to what stands
directly in front of them, and only parentheses and `AND` keep parts apart (`read`). A grouped
condition has no conjunction directly under one of the former, so its tokens are read as its meaning
(`read_tokens`), and two grouped conditions with the same tokens are true in the same
interpretations (`satisfies_iff_of_tokens_eq`).
-/

set_option autoImplicit false

namespace LazyMapper.Sql

/-! ## Conjunctions -/

namespace Expr

theorem conjuncts_eq_singleton {expr : Expr} (single : expr.isConjunction = false) :
    expr.conjuncts = [expr] := by
  cases expr with
  | all parts => cases single
  | column _ _ | bound _ | compare _ _ _ | member _ _ | isNull _ => rfl

theorem exists_parts {expr : Expr} (nested : expr.isConjunction) :
    ∃ parts, expr = .all parts := by
  match expr, nested with
  | .all parts, _ => exact ⟨parts, rfl⟩

end Expr

/-! ## Interpretations -/

/-- What the parts of a condition mean, and which meanings hold. -/
structure Interpretation (Meaning : Type) where
  column : Option String → String → Meaning
  constant : Value → Meaning
  compared : Comparison → Meaning → Meaning → Meaning
  /-- Membership in a list that is not empty. -/
  among : Meaning → List Value → Meaning
  null : Meaning → Meaning
  /-- Membership in the empty list. -/
  never : Meaning
  conjunction : List Meaning → Meaning
  Holds : Meaning → Prop
  not_holds_never : ¬ Holds never
  holds_conjunction : ∀ meanings, Holds (conjunction meanings) ↔ ∀ meaning ∈ meanings, Holds meaning

namespace Interpretation

variable {Meaning : Type} (interpretation : Interpretation Meaning)

mutual

/-- The meaning of an expression. -/
def eval : Expr → Meaning
  | .column table? name => interpretation.column table? name
  | .bound value => interpretation.constant value
  | .compare comparison left right =>
    interpretation.compared comparison (eval left) (eval right)
  | .member _ [] => interpretation.never
  | .member tested (first :: rest) => interpretation.among (eval tested) (first :: rest)
  | .isNull tested => interpretation.null (eval tested)
  | .all parts => interpretation.conjunction (evalParts parts)
termination_by structural expr => expr

/-- The meanings of the parts of a conjunction. -/
def evalParts : List Expr → List Meaning
  | [] => []
  | part :: rest => eval part :: evalParts rest
termination_by structural parts => parts

end

theorem evalParts_eq (parts : List Expr) :
    interpretation.evalParts parts = parts.map interpretation.eval := by
  induction parts with
  | nil => rfl
  | cons part rest ih => rw [evalParts, ih, List.map_cons]

/-- The expression is true. -/
def Satisfies (expr : Expr) : Prop := interpretation.Holds (interpretation.eval expr)

theorem satisfies_all {parts : List Expr} :
    interpretation.Satisfies (.all parts) ↔ ∀ part ∈ parts, interpretation.Satisfies part := by
  rw [Satisfies, eval, evalParts_eq, holds_conjunction, List.forall_mem_map]
  rfl

/-- An expression is true when all its conjuncts are. -/
theorem satisfies_iff_conjuncts {expr : Expr} :
    interpretation.Satisfies expr ↔
      ∀ meaning ∈ expr.conjuncts.map interpretation.eval, interpretation.Holds meaning := by
  cases nested : expr.isConjunction with
  | true =>
      obtain ⟨parts, rfl⟩ := Expr.exists_parts nested
      rw [satisfies_all, List.forall_mem_map]
      rfl
  | false =>
      rw [Expr.conjuncts_eq_singleton nested, List.map_singleton, List.forall_mem_singleton]
      rfl

end Interpretation

/-! ## SQL's truth values -/

/-- Both of two truth values, either of which may be unknown. -/
def both : Option Bool → Option Bool → Option Bool
  | some false, _ | _, some false => some false
  | some true, some true => some true
  | _, _ => none

/-- A conjunction is true when all its parts are. -/
theorem foldr_both_eq_true_iff {truths : List (Option Bool)} :
    truths.foldr both (some true) = some true ↔ ∀ truth ∈ truths, truth = some true := by
  induction truths with
  | nil => simp
  | cons truth rest ih =>
      rw [List.foldr_cons, List.forall_mem_cons, ← ih]
      generalize rest.foldr both (some true) = others
      match truth, others with
      | none, none | none, some false | none, some true | some false, none | some true, none
      | some false, some false | some false, some true | some true, some false
      | some true, some true => simp [both]

/-- A truth value as a SQL value. -/
def ofTruth : Option Bool → Value
  | some flag => .bool flag
  | none => .null

/-- The comparison of two values, unknown if either is null. -/
def compareKnown (related : Comparison → Value → Value → Bool) (comparison : Comparison)
    (left right : Value) : Value :=
  if left.isNull || right.isNull then .null else .bool (related comparison left right)

/-- SQL's logic over a row, given how values compare that are not null. -/
def Interpretation.sql (row : Option String → String → Value)
    (related : Comparison → Value → Value → Bool) : Interpretation Value where
  column := row
  constant := id
  compared := compareKnown related
  among tested values :=
    let found := values.map (compareKnown related .eq tested)
    if found.any (·.asBool = some true) then .bool true
    else if found.any (·.isNull) then .null
    else .bool false
  null tested := .bool tested.isNull
  never := .bool false
  conjunction meanings := ofTruth ((meanings.map Value.asBool).foldr both (some true))
  Holds meaning := meaning.asBool = some true
  not_holds_never := by simp [Value.asBool]
  holds_conjunction meanings := by
    have truth (truth : Option Bool) : (ofTruth truth).asBool = truth := by cases truth <;> rfl
    rw [truth, foldr_both_eq_true_iff, List.forall_mem_map]

/-! ## Grouped conditions -/

namespace Expr

/-- The expression is a single token. -/
def isOperand : Expr → Bool
  | .column _ _ | .bound _ | .member _ [] => true
  | .compare .. | .member _ (_ :: _) | .isNull _ | .all _ => false

mutual

/-- No conjunction stands directly under a comparison, an `IN` or an `IS NULL`, what a comparison
compares to is a single token, and no conjunction is one of nothing. -/
def isGrouped : Expr → Bool
  | .column _ _ | .bound _ | .member _ [] => true
  | .compare _ left right => isGrouped left && !left.isConjunction && right.isOperand
  | .member tested (_ :: _) | .isNull tested => isGrouped tested && !tested.isConjunction
  | .all parts => !parts.isEmpty && areGrouped parts
termination_by structural expr => expr

/-- All expressions are grouped. -/
def areGrouped : List Expr → Bool
  | [] => true
  | part :: rest => isGrouped part && areGrouped rest
termination_by structural parts => parts

end

theorem areGrouped_iff {parts : List Expr} :
    areGrouped parts ↔ ∀ part ∈ parts, part.isGrouped := by
  induction parts with
  | nil => simp [areGrouped]
  | cons part rest ih => rw [areGrouped, Bool.and_eq_true, ih, List.forall_mem_cons]

end Expr

/-! ## Reading tokens -/

/-- What is read next. -/
inductive Expected where
  /-- An operand or a parenthesis. -/
  | operand
  /-- What applies to the last operand, or the end of it. -/
  | operator
  /-- What the last operand is compared to. -/
  | compared (comparison : Comparison)
  /-- The values among which the last operand is, behind the given ones. -/
  | listed (values : List Value)

/-- How far tokens have been read: the meanings of the parts found between the innermost
parentheses, the last one first, and those found in front of every parenthesis that is open. -/
structure Reader (Meaning : Type) where
  expected : Expected
  found : List Meaning
  outer : List (List Meaning)

namespace Interpretation

open Token

variable {Meaning : Type} (interpretation : Interpretation Meaning)

/-- The meaning of a token that is an operand. -/
def operand? : Token → Option Meaning
  | .column table? name => some (interpretation.column table? name)
  | .bound value => some (interpretation.constant value)
  | .word .never => some interpretation.never
  | .word _ => none

/-- Reads a token, if it may stand here. -/
def step : Reader Meaning → Token → Option (Reader Meaning)
  | ⟨.operand, found, outer⟩, .word .opening => some ⟨.operand, [], found :: outer⟩
  | ⟨.operand, found, outer⟩, token =>
    (interpretation.operand? token).map fun meaning => ⟨.operator, meaning :: found, outer⟩
  | ⟨.operator, found, outer⟩, .word (.sign comparison) =>
    some ⟨.compared comparison, found, outer⟩
  | ⟨.compared comparison, last :: found, outer⟩, token =>
    (interpretation.operand? token).map fun meaning =>
      ⟨.operator, interpretation.compared comparison last meaning :: found, outer⟩
  | ⟨.operator, last :: found, outer⟩, .word .isNull =>
    some ⟨.operator, interpretation.null last :: found, outer⟩
  | ⟨.operator, found, outer⟩, .word .inList => some ⟨.listed [], found, outer⟩
  | ⟨.listed values, found, outer⟩, .bound value =>
    some ⟨.listed (values ++ [value]), found, outer⟩
  | ⟨.listed values, found, outer⟩, .word .comma => some ⟨.listed values, found, outer⟩
  | ⟨.listed values, last :: found, outer⟩, .word .closing =>
    some ⟨.operator, interpretation.among last values :: found, outer⟩
  | ⟨.operator, found, outer⟩, .word .conjunction => some ⟨.operand, found, outer⟩
  | ⟨.operator, found, front :: outer⟩, .word .closing =>
    some ⟨.operator, interpretation.conjunction found.reverse :: front, outer⟩
  | _, _ => none

/-- Reads tokens from left to right. -/
def read (tokens : List Token) (reader : Reader Meaning) : Option (Reader Meaning) :=
  tokens.foldlM interpretation.step reader

variable {interpretation}

theorem read_append {tokens rest : List Token} {reader : Reader Meaning} :
    interpretation.read (tokens ++ rest) reader =
      (interpretation.read tokens reader).bind (interpretation.read rest) :=
  List.foldlM_append

theorem read_cons {token : Token} {rest : List Token} {reader : Reader Meaning} :
    interpretation.read (token :: rest) reader =
      (interpretation.step reader token).bind (interpretation.read rest) := rfl

theorem exists_token (interpretation : Interpretation Meaning) {expr : Expr}
    (operand : expr.isOperand) :
    ∃ token, expr.tokens = [token] ∧
      interpretation.operand? token = some (interpretation.eval expr) := by
  match expr, operand with
  | .column table? name, _ => exact ⟨_, rfl, rfl⟩
  | .bound value, _ => exact ⟨_, rfl, rfl⟩
  | .member tested [], _ => exact ⟨_, rfl, rfl⟩

/-- What the last operand is compared to is read. -/
theorem read_compared {comparison : Comparison} {expr : Expr} (operand : expr.isOperand)
    {last : Meaning} {found : List Meaning} {outer : List (List Meaning)} :
    interpretation.read expr.tokens ⟨.compared comparison, last :: found, outer⟩ =
      some ⟨.operator,
        interpretation.compared comparison last (interpretation.eval expr) :: found, outer⟩ := by
  obtain ⟨token, tokens, meaning⟩ := exists_token interpretation operand
  rw [tokens, read_cons, step, meaning]
  rfl

theorem read_valueTokens (values front : List Value) {found : List Meaning}
    {outer : List (List Meaning)} :
    interpretation.read (Expr.valueTokens values) ⟨.listed front, found, outer⟩ =
      some ⟨.listed (front ++ values), found, outer⟩ := by
  induction values generalizing front with
  | nil => simp [Expr.valueTokens, separated, read]
  | cons value rest ih =>
      cases rest with
      | nil => rfl
      | cons next rest =>
          have later := ih (front ++ [value])
          rw [List.append_assoc, List.singleton_append] at later
          exact later

/-- A part of a conjunction is found as a whole, since parentheses keep a conjunction together. -/
theorem read_enclosed {part : Expr}
    (inside : ∀ (found : List Meaning) outer,
      interpretation.read part.tokens ⟨.operand, found, outer⟩ =
        some ⟨.operator, (part.conjuncts.map interpretation.eval).reverse ++ found, outer⟩)
    (found : List Meaning) (outer : List (List Meaning)) :
    interpretation.read (enclosed part.isConjunction part.tokens) ⟨.operand, found, outer⟩ =
      some ⟨.operator, interpretation.eval part :: found, outer⟩ := by
  cases nested : part.isConjunction with
  | false =>
      rw [Expr.conjuncts_eq_singleton nested] at inside
      exact inside found outer
  | true =>
      -- Behind the parenthesis nothing is found yet; at the other one all conjuncts are.
      obtain ⟨parts, rfl⟩ := Expr.exists_parts nested
      rw [enclosed, if_pos rfl, read_cons, step, Option.bind_some, read_append, inside,
        Option.bind_some, read_cons, step, List.append_nil, List.reverse_reverse,
        eval, evalParts_eq]
      rfl

mutual

/-- **A grouped condition is read as its meaning.** Its conjuncts are found, one after the other. -/
theorem read_tokens : ∀ {expr : Expr}, expr.isGrouped → ∀ (found : List Meaning) outer,
    interpretation.read expr.tokens ⟨.operand, found, outer⟩ =
      some ⟨.operator, (expr.conjuncts.map interpretation.eval).reverse ++ found, outer⟩
  | .column _ _, _, _, _ | .bound _, _, _, _ | .member _ [], _, _, _ => rfl
  | .compare comparison left right, grouped, found, outer => by
      simp only [Expr.isGrouped, Bool.and_eq_true, Bool.not_eq_true'] at grouped
      obtain ⟨⟨inside, single⟩, operand⟩ := grouped
      rw [Expr.tokens, read_append, read_tokens inside, Expr.conjuncts_eq_singleton single]
      exact read_compared operand
  | .member tested (first :: rest), grouped, found, outer => by
      simp only [Expr.isGrouped, Bool.and_eq_true, Bool.not_eq_true'] at grouped
      rw [Expr.tokens, read_append, read_tokens grouped.1, Expr.conjuncts_eq_singleton grouped.2,
        Option.bind_some, read_cons, step, Option.bind_some, read_append, read_valueTokens]
      rfl
  | .isNull tested, grouped, found, outer => by
      simp only [Expr.isGrouped, Bool.and_eq_true, Bool.not_eq_true'] at grouped
      rw [Expr.tokens, read_append, read_tokens grouped.1, Expr.conjuncts_eq_singleton grouped.2]
      rfl
  | .all parts, grouped, found, outer => by
      simp only [Expr.isGrouped, Bool.and_eq_true, Bool.not_eq_true'] at grouped
      exact read_tokensOfParts (by simpa using grouped.1) grouped.2 found outer

/-- The parts of a conjunction are found, one after the other. -/
theorem read_tokensOfParts : ∀ {parts : List Expr}, parts ≠ [] → Expr.areGrouped parts →
    ∀ (found : List Meaning) outer,
      interpretation.read (separated .conjunction (Expr.tokensOfParts parts))
        ⟨.operand, found, outer⟩ =
        some ⟨.operator, (parts.map interpretation.eval).reverse ++ found, outer⟩
  | [], nonempty, _, _, _ => absurd rfl nonempty
  | [part], _, grouped, found, outer => by
      rw [Expr.areGrouped, Bool.and_eq_true] at grouped
      exact read_enclosed (read_tokens grouped.1) found outer
  | part :: next :: rest, _, grouped, found, outer => by
      rw [Expr.areGrouped, Bool.and_eq_true] at grouped
      have later := read_tokensOfParts (List.cons_ne_nil next rest) grouped.2
      rw [Expr.tokensOfParts] at later ⊢
      rw [Expr.tokensOfParts, separated_cons_cons, read_append,
        read_enclosed (read_tokens grouped.1), Option.bind_some, read_cons, step, Option.bind_some,
        later]
      simp

end

/-- **Grouped conditions with the same tokens have the same meaning.** -/
theorem satisfies_iff_of_tokens_eq {first second : Expr} (grouped : first.isGrouped)
    (grouped' : second.isGrouped) (same : first.tokens = second.tokens) :
    interpretation.Satisfies first ↔ interpretation.Satisfies second := by
  have reads : interpretation.read first.tokens ⟨.operand, [], []⟩ = _ := read_tokens grouped [] []
  rw [same, read_tokens grouped', Option.some.injEq, Reader.mk.injEq, List.append_nil,
    List.append_nil, List.reverse_inj] at reads
  rw [satisfies_iff_conjuncts, satisfies_iff_conjuncts, reads.2.1]

end Interpretation

end LazyMapper.Sql
