import LazyMapper.Proofs.Sql.Parameters

/-!
# The tokens of a condition

A rendered condition is a sequence of tokens: columns, bound values, and a few fixed words for
signs, lists, parentheses and what joins them (`Expr.tokens`). Which tokens a condition has depends
neither on the dialect nor on the parameters before it. Rendering writes the tokens out one by one,
a bound value as the placeholder of the next number, and appends the bound values to the parameters
(`Expr.render_eq`).
-/

set_option autoImplicit false

namespace LazyMapper.Sql

/-! ## Tokens -/

/-- The fixed words of a condition. -/
inductive Word where
  | sign (comparison : Comparison)
  | isNull
  | inList
  | comma
  | opening
  | closing
  | conjunction
  /-- Membership in an empty list. -/
  | never
deriving DecidableEq

/-- The text of a word, with the blanks that set it off. -/
def Word.text : Word → String
  | .sign comparison => " " ++ comparison.sign ++ " "
  | .isNull => " IS NULL"
  | .inList => " IN ("
  | .comma => ", "
  | .opening => "("
  | .closing => ")"
  | .conjunction => " AND "
  | .never => "1 = 0"

/-- A token of a condition. -/
inductive Token where
  | word (fixed : Word)
  | column (table? : Option String) (name : String)
  | bound (value : Value)

namespace Token

/-- The value of a bound token. -/
def value? : Token → Option Value
  | .bound value => some value
  | .word _ | .column .. => none

/-- The bound values among tokens, from left to right. -/
def values (tokens : List Token) : List Value := tokens.filterMap value?

/-- Tokens written out behind a number of parameters. -/
def pieces (dialect : Dialect) : Nat → List Token → Fragment
  | _, [] => []
  | count, .word fixed :: rest => .text fixed.text :: pieces dialect count rest
  | count, .column table? name :: rest =>
    .text (dialect.column table? name) :: pieces dialect count rest
  | count, .bound _ :: rest => .placeholder (count + 1) :: pieces dialect (count + 1) rest

/-- Tokens with a word between each two groups. -/
def separated (between : Word) : List (List Token) → List Token
  | [] => []
  | [tokens] => tokens
  | tokens :: rest => tokens ++ .word between :: separated between rest

/-- The tokens of a part of a conjunction, in parentheses if the part is one itself. -/
def enclosed (nested : Bool) (tokens : List Token) : List Token :=
  if nested then .word .opening :: (tokens ++ [.word .closing]) else tokens

@[simp] theorem values_append (tokens more : List Token) :
    values (tokens ++ more) = values tokens ++ values more :=
  List.filterMap_append

@[simp] theorem values_word (fixed : Word) (rest : List Token) :
    values (.word fixed :: rest) = values rest := rfl

@[simp] theorem values_column (table? : Option String) (name : String) (rest : List Token) :
    values (.column table? name :: rest) = values rest := rfl

@[simp] theorem values_bound (value : Value) (rest : List Token) :
    values (.bound value :: rest) = value :: values rest := rfl

@[simp] theorem values_enclosed (nested : Bool) (tokens : List Token) :
    values (enclosed nested tokens) = values tokens := by
  cases nested with
  | false => rfl
  | true =>
      rw [enclosed, if_pos rfl, values_word, values_append]
      exact List.append_nil _

theorem separated_cons_cons (between : Word) (tokens next : List Token) (rest : List (List Token)) :
    separated between (tokens :: next :: rest) =
      tokens ++ .word between :: separated between (next :: rest) := rfl

theorem pieces_append (dialect : Dialect) (count : Nat) (tokens more : List Token) :
    pieces dialect count (tokens ++ more) =
      pieces dialect count tokens ++ pieces dialect (count + (values tokens).length) more := by
  induction tokens generalizing count with
  | nil => simp [pieces, values]
  | cons token rest ih =>
      cases token with
      | word fixed => simp only [List.cons_append, pieces, ih, values_word]
      | column table? name => simp only [List.cons_append, pieces, ih, values_column]
      | bound value =>
          simp only [List.cons_append, pieces, ih, values_bound, List.length_cons]
          rw [Nat.add_right_comm, Nat.add_assoc]

theorem pieces_enclosed (dialect : Dialect) (count : Nat) (nested : Bool) (tokens : List Token) :
    pieces dialect count (enclosed nested tokens) =
      if nested then Expr.parenthesise (pieces dialect count tokens)
      else pieces dialect count tokens := by
  cases nested with
  | false => rfl
  | true =>
      rw [enclosed, if_pos rfl, pieces, pieces_append]
      rfl

end Token

/-! ## Conditions -/

namespace Expr

open Token

/-- The tokens of a list of values. -/
def valueTokens (values : List Value) : List Token :=
  separated .comma (values.map fun value => [.bound value])

mutual

/-- The tokens of an expression. -/
def tokens : Expr → List Token
  | .column table? name => [.column table? name]
  | .bound value => [.bound value]
  | .compare comparison left right => left.tokens ++ .word (.sign comparison) :: right.tokens
  | .member _ [] => [.word .never]
  | .member tested (first :: rest) =>
    tested.tokens ++ .word .inList :: (valueTokens (first :: rest) ++ [.word .closing])
  | .isNull tested => tested.tokens ++ [.word .isNull]
  | .all parts => separated .conjunction (tokensOfParts parts)
termination_by structural expr => expr

/-- The tokens of each part of a conjunction. -/
def tokensOfParts : List Expr → List (List Token)
  | [] => []
  | part :: rest => enclosed part.isConjunction part.tokens :: tokensOfParts rest
termination_by structural parts => parts

end

/-! ## The values of the tokens -/

theorem values_valueTokens (values : List Value) : Token.values (valueTokens values) = values := by
  induction values with
  | nil => rfl
  | cons value rest ih =>
      cases rest with
      | nil => rfl
      | cons next rest => exact congrArg (value :: ·) ih

mutual

/-- The bound tokens of an expression are its values. -/
theorem values_tokens : ∀ expr : Expr, Token.values expr.tokens = expr.values
  | .column _ _ => rfl
  | .bound _ => rfl
  | .compare _ left right => by
      rw [tokens, values_append, values_word, values_tokens left, values_tokens right, values]
  | .member _ [] => rfl
  | .member tested (first :: rest) => by
      rw [tokens, values_append, values_word, values_append, values_tokens tested,
        values_valueTokens, values]
      exact congrArg _ (List.append_nil _)
  | .isNull tested => by
      rw [tokens, values_append, values_tokens tested, values]
      exact List.append_nil _
  | .all parts => by rw [tokens, values, values_tokensOfParts parts]

theorem values_tokensOfParts : ∀ parts : List Expr,
    Token.values (separated .conjunction (tokensOfParts parts)) = valuesOfParts parts
  | [] => rfl
  | [part] => by
      rw [tokensOfParts, tokensOfParts, separated, values_enclosed, values_tokens part,
        valuesOfParts, valuesOfParts, List.append_nil]
  | part :: next :: rest => by
      have later := values_tokensOfParts (next :: rest)
      rw [valuesOfParts, ← later]
      rw [tokensOfParts, tokensOfParts, separated_cons_cons, values_append, values_enclosed,
        values_tokens part, values_word]

end

/-! ## Rendering writes the tokens -/

variable (dialect : Dialect)

theorem separated_bindAll (params : List Value) (first : Value) (rest : List Value) :
    Fragment.separated ", " (bindAll params (first :: rest)).1 =
      pieces dialect params.length (valueTokens (first :: rest)) := by
  induction rest generalizing params first with
  | nil => rfl
  | cons next rest ih =>
      have later := ih (params ++ [first]) next
      rw [List.length_append, List.length_singleton] at later
      exact congrArg (fun fragment => .placeholder (params.length + 1) :: .text ", " :: fragment)
        later

mutual

/-- **Rendering an expression writes its tokens out**, behind the parameters given before. -/
theorem render_eq : ∀ (expr : Expr) (params : List Value),
    (expr.render dialect params).1 = pieces dialect params.length expr.tokens
  | .column _ _, _ => rfl
  | .bound _, _ => rfl
  | .compare _ left right, params => by
      simp only [render, tokens]
      rw [render_eq right, render_eq left, render_params, pieces_append, pieces, values_tokens,
        List.length_append]
      rfl
  | .member _ [], _ => rfl
  | .member tested (first :: rest), params => by
      simp only [render, tokens]
      rw [separated_bindAll dialect, render_eq tested, render_params, pieces_append, pieces,
        pieces_append, values_tokens, List.length_append, List.append_assoc]
      rfl
  | .isNull tested, params => by
      simp only [render, tokens]
      rw [render_eq tested, pieces_append]
      rfl
  | .all parts, params => by
      simp only [render, tokens]
      exact separated_renderParts parts params

theorem separated_renderParts : ∀ (parts : List Expr) (params : List Value),
    Fragment.separated " AND " (renderParts dialect parts params).1 =
      pieces dialect params.length (separated .conjunction (tokensOfParts parts))
  | [], _ => rfl
  | [part], params => by
      simp only [renderParts, tokensOfParts, separated, Fragment.separated]
      rw [pieces_enclosed, render_eq part]
  | part :: next :: rest, params => by
      have later := separated_renderParts (next :: rest) (part.render dialect params).2
      simp only [renderParts, tokensOfParts, Fragment.separated] at later ⊢
      rw [later, separated_cons_cons, pieces_append, pieces, pieces_enclosed, values_enclosed,
        render_eq part, render_params, values_tokens, List.length_append]
      rfl

end

end Expr

end LazyMapper.Sql
