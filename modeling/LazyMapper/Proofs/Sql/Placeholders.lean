import LazyMapper.Proofs.Sql.Tokens
import LazyMapper.Statement.Compile

/-!
# Placeholders and parameters

A placeholder is a piece of its own in a rendered text, whatever the names of columns look like. The
pieces of a condition are written from its tokens, and every bound token gives one placeholder and
one parameter. So the placeholders of a condition have the numbers of its values among the
parameters, from left to right and without gaps, in every dialect, and the text depends on the
parameters before it only through their number. Neither the select list nor the order of a query
binds anything, so the placeholders of a compiled statement count its parameters
(`placeholders_aligned`).
-/

set_option autoImplicit false

namespace LazyMapper.Sql

/-- The number of a placeholder. -/
def Piece.number? : Piece → Option Nat
  | .text _ => none
  | .placeholder number => some number

/-- The numbers of the placeholders in a text, from left to right. -/
def Fragment.numbers (fragment : Fragment) : List Nat := fragment.filterMap Piece.number?

namespace Fragment

@[simp] theorem numbers_append (fragment more : Fragment) :
    numbers (fragment ++ more) = numbers fragment ++ numbers more :=
  List.filterMap_append

@[simp] theorem numbers_text (content : String) (rest : Fragment) :
    numbers (.text content :: rest) = numbers rest := rfl

theorem numbers_separated (separator : String) (fragments : List Fragment)
    (plain : ∀ fragment ∈ fragments, numbers fragment = []) :
    numbers (separated separator fragments) = [] := by
  induction fragments with
  | nil => rfl
  | cons fragment rest ih =>
      obtain ⟨here, others⟩ := List.forall_mem_cons.mp plain
      cases rest with
      | nil => exact here
      | cons next rest =>
          rw [separated, numbers_append, here, numbers_text, ih others]
          · rfl
          · simp

end Fragment

namespace Token

/-- Every bound token is written as the placeholder of the next number. -/
theorem numbers_pieces (dialect : Dialect) (count : Nat) (tokens : List Token) :
    (pieces dialect count tokens).numbers = List.range' (count + 1) (values tokens).length := by
  induction tokens generalizing count with
  | nil => rfl
  | cons token rest ih =>
      cases token with
      | word fixed => exact ih count
      | column table? name => exact ih count
      | bound value => exact congrArg ((count + 1) :: ·) (ih (count + 1))

/-- What is written besides placeholders are fixed words and columns. -/
theorem text_mem_pieces {dialect : Dialect} {count : Nat} {tokens : List Token} {content : String}
    (member : .text content ∈ pieces dialect count tokens) :
    (∃ fixed : Word, content = fixed.text) ∨
      ∃ table? name, .column table? name ∈ tokens ∧ content = dialect.column table? name := by
  induction tokens generalizing count with
  | nil => cases member
  | cons token rest ih =>
      have later {count : Nat} (member : .text content ∈ pieces dialect count rest) :
          (∃ fixed : Word, content = fixed.text) ∨ ∃ table? name,
            .column table? name ∈ token :: rest ∧ content = dialect.column table? name :=
        (ih member).imp_right fun ⟨table?, name, inside, same⟩ =>
          ⟨table?, name, List.mem_cons_of_mem token inside, same⟩
      cases token with
      | word fixed =>
          rcases List.mem_cons.mp member with here | behind
          · exact .inl ⟨fixed, (Piece.text.inj here)⟩
          · exact later behind
      | column table? name =>
          rcases List.mem_cons.mp member with here | behind
          · exact .inr ⟨table?, name, List.mem_cons_self, Piece.text.inj here⟩
          · exact later behind
      | bound value =>
          rcases List.mem_cons.mp member with here | behind
          · cases here
          · exact later behind

end Token

namespace Query

theorem numbers_orderText (dialect : Dialect) (term : OrderTerm) :
    (orderText dialect term).numbers = [] := by
  unfold orderText Expr.ofColumnName
  split <;> split <;> rfl

theorem numbers_renderOrder (dialect : Dialect) (order : List OrderTerm) :
    (renderOrder dialect order).numbers = [] := by
  cases order with
  | nil => rfl
  | cons term rest =>
      refine Fragment.numbers_separated ", " _ fun fragment member => ?_
      obtain ⟨term, -, rfl⟩ := List.mem_map.mp member
      exact numbers_orderText dialect term

/-- The placeholders of a query count its parameters. -/
theorem numbers_render (dialect : Dialect) (query : Query) :
    (query.render dialect).1.numbers = List.range' 1 (query.render dialect).2.length := by
  have limit : (renderLimit query.limit?).numbers = [] := by cases query.limit? <;> rfl
  unfold render
  simp only [List.cons_append, Fragment.numbers_text, Fragment.numbers_append,
    numbers_renderOrder, limit, List.append_nil]
  cases query.condition? with
  | none => rfl
  | some condition =>
      simp only [renderCondition, Fragment.numbers_text]
      rw [Expr.render_eq, Expr.render_params, Token.numbers_pieces, Expr.values_tokens]
      rfl

end Query

/-- **Placeholders and parameters stay aligned.** Building a condition appends its values, the same
in every dialect. The text has one placeholder for each of them, in their order, with the number
that the value has among the parameters; its other pieces are fixed words and the condition's
columns. Of the parameters before, only their number matters. The placeholders of a compiled
statement are numbered from one to the number of its parameters. -/
theorem placeholders_aligned (dialect : Dialect) :
    (∀ (expr : Expr) (params : List Value),
      let fragment := (expr.render dialect params).1
      expr.build dialect params = (fragment.toText dialect, params ++ expr.values) ∧
      fragment.numbers = List.range' (params.length + 1) expr.values.length ∧
      fragment.numbers.map (fun number => (params ++ expr.values)[number - 1]?) =
        expr.values.map some ∧
      (∀ content, .text content ∈ fragment → (∃ fixed : Word, content = fixed.text) ∨
        ∃ table? name, .column table? name ∈ expr.tokens ∧
          content = dialect.column table? name) ∧
      ∀ others : List Value, others.length = params.length →
        (expr.render dialect others).1 = fragment ∧
          (expr.build dialect others).1 = (expr.build dialect params).1) ∧
    (∀ number, (Piece.placeholder number).toText .mysql = "?") ∧
    ∀ compiled : CompiledStatement,
      let rendered := compiled.query.render compiled.dialect
      compiled.sql = rendered.1.toText compiled.dialect ∧ compiled.params = rendered.2 ∧
        rendered.1.numbers = List.range' 1 compiled.params.length := by
  refine ⟨fun expr params => ?_, fun _ => rfl, fun compiled =>
    ⟨rfl, rfl, Query.numbers_render compiled.dialect compiled.query⟩⟩
  have rendered := Expr.render_eq dialect expr
  have numbers : (expr.render dialect params).1.numbers =
      List.range' (params.length + 1) expr.values.length := by
    rw [rendered, Token.numbers_pieces, Expr.values_tokens]
  refine ⟨?_, numbers, ?_, fun content member => ?_, fun others same => ?_⟩
  · exact Prod.ext rfl (Expr.render_params dialect expr params)
  · rw [numbers]
    apply List.ext_getElem (by simp)
    intro index _ _
    have behind : (params ++ expr.values)[params.length + index]? = expr.values[index]? := by
      rw [List.getElem?_append_right (Nat.le_add_right ..), Nat.add_sub_cancel_left]
    simp [behind]
  · rw [rendered] at member
    exact Token.text_mem_pieces member
  · have alike : (expr.render dialect others).1 = (expr.render dialect params).1 := by
      rw [rendered, rendered, same]
    exact ⟨alike, congrArg (Fragment.toText dialect) alike⟩

/-- A column whose name looks like a placeholder is not counted. -/
example :
    ((Expr.ofColumnName "$1").equals (.bigInt 7)).build .postgres [.null] =
        ("\"$1\" = $2", [.null, .bigInt 7]) ∧
      (((Expr.ofColumnName "$1").equals (.bigInt 7)).render .postgres [.null]).1.numbers = [2] :=
  ⟨rfl, rfl⟩

end LazyMapper.Sql
