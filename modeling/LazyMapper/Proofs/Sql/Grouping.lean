import LazyMapper.Proofs.Sql.Lexing
import LazyMapper.Proofs.Sql.Meaning

/-!
# Rendering keeps the grouping of grouped conditions

A conjunction is put in parentheses inside another conjunction, and nowhere else. So the text of a
condition tells its meaning when no conjunction stands directly under a comparison, an `IN` or an
`IS NULL`, and of a condition that is built otherwise it does not: the text is then read as a
conjunction whose last part alone is compared, looked up or tested (`Buildable.hasClauses`),
which means something else (`Expr.build_keeps_meaning`).
-/

set_option autoImplicit false

namespace LazyMapper.Sql

namespace Token

theorem separated_append {between : Word} {groups more : List (List Token)} (front : groups ≠ [])
    (back : more ≠ []) : separated between (groups ++ more) =
      separated between groups ++ .word between :: separated between more := by
  induction groups with
  | nil => exact absurd rfl front
  | cons tokens rest ih =>
      cases rest with
      | nil =>
          obtain ⟨next, others, rfl⟩ := List.exists_cons_of_ne_nil back
          rfl
      | cons next rest =>
          have later := ih (List.cons_ne_nil next rest)
          rw [List.cons_append] at later
          rw [List.cons_append, List.cons_append, separated_cons_cons, later, separated_cons_cons,
            List.append_assoc, List.cons_append]

/-- What follows the last group belongs to it. -/
theorem separated_concat_append {between : Word} {front : List (List Token)}
    {last more : List Token} :
    separated between (front ++ [last]) ++ more = separated between (front ++ [last ++ more]) := by
  cases front with
  | nil => rfl
  | cons tokens rest =>
      rw [separated_append (List.cons_ne_nil tokens rest) (List.cons_ne_nil last []),
        separated_append (List.cons_ne_nil tokens rest) (List.cons_ne_nil (last ++ more) []),
        List.append_assoc, List.cons_append]
      rfl

end Token

namespace Expr

open Token

theorem tokensOfParts_eq (parts : List Expr) :
    tokensOfParts parts = parts.map fun part => enclosed part.isConjunction part.tokens := by
  induction parts with
  | nil => rfl
  | cons part rest ih => rw [tokensOfParts, ih, List.map_cons]

/-- An expression is written as its conjuncts are. -/
theorem tokens_eq_conjuncts (expr : Expr) :
    expr.tokens = separated .conjunction (tokensOfParts expr.conjuncts) := by
  cases expr with
  | all parts => rfl
  | column _ _ | bound _ | compare _ _ _ | member _ _ | isNull _ => rfl

theorem tokens_and {left right : Expr} (front : left.conjuncts ≠ []) (back : right.conjuncts ≠ []) :
    (left.and right).tokens = left.tokens ++ .word .conjunction :: right.tokens := by
  rw [tokens_eq_conjuncts left, tokens_eq_conjuncts right, and, tokens, tokensOfParts_eq,
    tokensOfParts_eq, tokensOfParts_eq, List.map_append,
    separated_append (by simpa using front) (by simpa using back)]

theorem plain_valueTokens (values : List Value) : ∀ token ∈ valueTokens values, token.Plain := by
  induction values with
  | nil => exact List.forall_mem_nil _
  | cons value rest ih =>
      cases rest with
      | nil => exact List.forall_mem_singleton.mpr trivial
      | cons next rest =>
          exact List.forall_mem_cons.mpr ⟨trivial, List.forall_mem_cons.mpr ⟨trivial, ih⟩⟩

/-! ## Built expressions -/

/-- What columns by their names, bound values and the methods for expressions build, with names as
tables of columns. -/
inductive Buildable : Expr → Prop
  | column (text : String) (plain : (ofColumnName text).Plain) : Buildable (ofColumnName text)
  | bound (value : Value) : Buildable (.bound value)
  | compareValue {expr : Expr} (comparison : Comparison) (value : Value) (built : Buildable expr) :
    Buildable (expr.compareValue comparison value)
  | member {expr : Expr} (values : List Value) (built : Buildable expr) :
    Buildable (.member expr values)
  | isNull {expr : Expr} (built : Buildable expr) : Buildable (.isNull expr)
  | and {left right : Expr} (built : Buildable left) (built' : Buildable right) :
    Buildable (left.and right)

theorem exists_column (text : String) : ∃ table? name, ofColumnName text = .column table? name := by
  unfold ofColumnName
  split <;> exact ⟨_, _, rfl⟩

namespace Buildable

theorem conjuncts_ne_nil {expr : Expr} (built : Buildable expr) : expr.conjuncts ≠ [] := by
  induction built with
  | column text plain =>
      obtain ⟨table?, name, column⟩ := exists_column text
      rw [column]
      exact List.cons_ne_nil _ _
  | bound | compareValue | member | isNull => exact List.cons_ne_nil _ _
  | and built built' ih ih' => exact List.append_ne_nil_of_left_ne_nil ih _

theorem plain {expr : Expr} (built : Buildable expr) : expr.Plain := by
  induction built with
  | column text plain => exact plain
  | bound value => exact List.forall_mem_singleton.mpr trivial
  | compareValue comparison value built ih =>
      exact List.forall_mem_append.mpr
        ⟨ih, List.forall_mem_cons.mpr ⟨trivial, List.forall_mem_singleton.mpr trivial⟩⟩
  | member values built ih =>
      cases values with
      | nil => exact List.forall_mem_singleton.mpr trivial
      | cons first rest =>
          refine List.forall_mem_append.mpr ⟨ih, List.forall_mem_cons.mpr ⟨trivial, ?_⟩⟩
          exact List.forall_mem_append.mpr
            ⟨plain_valueTokens _, List.forall_mem_singleton.mpr trivial⟩
  | isNull built ih =>
      exact List.forall_mem_append.mpr ⟨ih, List.forall_mem_singleton.mpr trivial⟩
  | and built built' ih ih' =>
      rw [Plain, tokens_and built.conjuncts_ne_nil built'.conjuncts_ne_nil]
      exact List.forall_mem_append.mpr ⟨ih, List.forall_mem_cons.mpr ⟨trivial, ih'⟩⟩

end Buildable

/-! ## The clauses of a text -/

/-- A built expression that is grouped and no conjunction. -/
structure IsClause (expr : Expr) : Prop where
  built : Buildable expr
  grouped : expr.isGrouped
  single : expr.isConjunction = false

/-- The expression is written like clauses joined by `AND`, of which there is only one when the
expression is a clause itself. -/
def HasClauses (expr : Expr) : Prop :=
  ∃ front last, (∀ clause ∈ front ++ [last], IsClause clause) ∧
    expr.tokens = separated .conjunction ((front ++ [last]).map tokens) ∧
    (front = [] → IsClause expr)

theorem IsClause.hasClauses {expr : Expr} (clause : IsClause expr) : HasClauses expr :=
  ⟨[], expr, List.forall_mem_singleton.mpr clause, rfl, fun _ => clause⟩

/-- What is written behind an expression applies to its last clause alone. -/
theorem HasClauses.extend {expr : Expr} (clauses : HasClauses expr) (apply : Expr → Expr)
    {more : List Token} (written : ∀ expr, (apply expr).tokens = expr.tokens ++ more)
    (clause : ∀ {expr}, IsClause expr → IsClause (apply expr)) : HasClauses (apply expr) := by
  obtain ⟨front, last, all, tokens, alone⟩ := clauses
  obtain ⟨others, final⟩ := List.forall_mem_append.mp all
  refine ⟨front, apply last, List.forall_mem_append.mpr ⟨others, ?_⟩, ?_, fun none =>
    clause (alone none)⟩
  · exact List.forall_mem_singleton.mpr (clause (List.forall_mem_singleton.mp final))
  · rw [written, tokens, List.map_append, List.map_append, List.map_singleton, List.map_singleton,
      separated_concat_append, written]

theorem HasClauses.and {left right : Expr} (clauses : HasClauses left)
    (clauses' : HasClauses right) (some : left.conjuncts ≠ []) (some' : right.conjuncts ≠ []) :
    HasClauses (left.and right) := by
  obtain ⟨front, last, all, tokens, -⟩ := clauses
  obtain ⟨front', last', all', tokens', -⟩ := clauses'
  have parts : front ++ last :: front' ++ [last'] = (front ++ [last]) ++ (front' ++ [last']) := by
    simp
  refine ⟨front ++ last :: front', last', ?_, ?_, fun none => by simp at none⟩
  · rw [parts]
    exact List.forall_mem_append.mpr ⟨all, all'⟩
  · rw [parts, List.map_append, separated_append (by simp) (by simp), ← tokens, ← tokens']
    exact tokens_and some some'

/-- **How the text of a built expression is read**: as clauses joined by `AND`. -/
theorem Buildable.hasClauses {expr : Expr} (built : Buildable expr) : HasClauses expr := by
  induction built with
  | column text plain =>
      obtain ⟨table?, name, column⟩ := exists_column text
      have clause : IsClause (ofColumnName text) :=
        ⟨.column text plain, by rw [column]; rfl, by rw [column]; rfl⟩
      exact clause.hasClauses
  | bound value => exact IsClause.hasClauses ⟨.bound value, rfl, rfl⟩
  | compareValue comparison value built ih =>
      refine ih.extend (·.compareValue comparison value) (fun expr => rfl)
        fun clause => ⟨.compareValue comparison value clause.built, ?_, rfl⟩
      simp [Expr.compareValue, isGrouped, isOperand, clause.grouped, clause.single]
  | member values built ih =>
      cases values with
      | nil => exact IsClause.hasClauses ⟨.member [] built, rfl, rfl⟩
      | cons first rest =>
          refine ih.extend (.member · (first :: rest)) (fun expr => rfl)
            fun clause => ⟨.member (first :: rest) clause.built, ?_, rfl⟩
          simp [isGrouped, clause.grouped, clause.single]
  | isNull built ih =>
      refine ih.extend .isNull (fun expr => rfl)
        fun clause => ⟨.isNull clause.built, ?_, rfl⟩
      simp [isGrouped, clause.grouped, clause.single]
  | and built built' ih ih' => exact ih.and ih' built.conjuncts_ne_nil built'.conjuncts_ne_nil

/-- Clauses joined by `AND` are a built expression. -/
theorem buildable_all {first : Expr} {rest : List Expr} {last : Expr}
    (clauses : ∀ clause ∈ first :: rest ++ [last], IsClause clause) :
    Buildable (.all (first :: rest ++ [last])) := by
  induction rest generalizing first with
  | nil =>
      obtain ⟨here, others⟩ := List.forall_mem_cons.mp clauses
      have final := List.forall_mem_singleton.mp others
      have joined := Buildable.and here.built final.built
      rw [Expr.and, conjuncts_eq_singleton here.single,
        conjuncts_eq_singleton final.single] at joined
      exact joined
  | cons next rest ih =>
      obtain ⟨here, others⟩ := List.forall_mem_cons.mp clauses
      have joined := Buildable.and here.built (ih others)
      rw [Expr.and, conjuncts_eq_singleton here.single] at joined
      exact joined

/-- Clauses joined by `AND` stand without parentheses. -/
theorem tokens_all {clauses : List Expr} (all : ∀ clause ∈ clauses, IsClause clause) :
    (Expr.all clauses).tokens = separated .conjunction (clauses.map tokens) := by
  rw [tokens, tokensOfParts_eq]
  refine congrArg _ (List.map_congr_left fun clause member => ?_)
  rw [(all clause member).single]
  rfl

theorem isGrouped_all {clauses : List Expr} (some : clauses ≠ [])
    (all : ∀ clause ∈ clauses, IsClause clause) : (Expr.all clauses).isGrouped := by
  rw [isGrouped, Bool.and_eq_true]
  exact ⟨by simpa using some, areGrouped_iff.mpr fun clause member => (all clause member).grouped⟩

end Expr

/-! ## What a text means that lost a group -/

/-- The meaning of an expression is how it is written, and whether it holds. -/
structure Written where
  tokens : List Token
  nested : Bool
  holds : Prop

/-- An expression that is no conjunction holds if it is written like a whole text. -/
def Interpretation.written (whole : List Token) : Interpretation Written :=
  let single (tokens : List Token) : Written := ⟨tokens, false, tokens = whole⟩
  { column := fun table? name => single [.column table? name]
    constant := fun value => single [.bound value]
    compared := fun comparison left right =>
      single (left.tokens ++ .word (.sign comparison) :: right.tokens)
    among := fun tested values =>
      single (tested.tokens ++ .word .inList :: (Expr.valueTokens values ++ [.word .closing]))
    null := fun tested => single (tested.tokens ++ [.word .isNull])
    never := ⟨[.word .never], false, False⟩
    conjunction := fun parts =>
      ⟨Token.separated .conjunction (parts.map fun part => Token.enclosed part.nested part.tokens),
        true, ∀ part ∈ parts, part.holds⟩
    Holds := Written.holds
    not_holds_never := id
    holds_conjunction := fun _ => Iff.rfl }

namespace Interpretation

open Token

variable (whole : List Token)

mutual

/-- The meaning of an expression has its tokens. -/
theorem eval_written : ∀ expr : Expr,
    ((written whole).eval expr).tokens = expr.tokens ∧
      ((written whole).eval expr).nested = expr.isConjunction
  | .column _ _ | .bound _ | .member _ [] => ⟨rfl, rfl⟩
  | .compare comparison left right => by
      refine ⟨?_, rfl⟩
      rw [Expr.tokens, ← (eval_written left).1, ← (eval_written right).1]
      rfl
  | .member tested (first :: rest) => by
      refine ⟨?_, rfl⟩
      rw [Expr.tokens, ← (eval_written tested).1]
      rfl
  | .isNull tested => by
      refine ⟨?_, rfl⟩
      rw [Expr.tokens, ← (eval_written tested).1]
      rfl
  | .all parts => by
      refine ⟨?_, rfl⟩
      rw [Expr.tokens, ← evalParts_written parts]
      rfl

theorem evalParts_written : ∀ parts : List Expr,
    ((written whole).evalParts parts).map (fun part => enclosed part.nested part.tokens) =
      Expr.tokensOfParts parts
  | [] => rfl
  | part :: rest => by
      rw [evalParts, List.map_cons, (eval_written part).1, (eval_written part).2,
        evalParts_written rest]
      rfl

end

variable {whole}

/-- What is true and no conjunction is written like the whole text. -/
theorem tokens_eq_of_satisfies {expr : Expr} (single : expr.isConjunction = false)
    (true : (written whole).Satisfies expr) : expr.tokens = whole := by
  rw [← (eval_written whole expr).1]
  match expr, single with
  | .column _ _, _ | .bound _, _ | .compare _ _ _, _ | .member _ (_ :: _), _ | .isNull _, _ =>
    exact true
  | .member _ [], _ => exact true.elim

/-- An expression that is not grouped and no conjunction is true of its own text. -/
theorem satisfies_written {expr : Expr} (single : expr.isConjunction = false)
    (ungrouped : expr.isGrouped = false) : (written expr.tokens).Satisfies expr := by
  have own := (eval_written expr.tokens expr).1
  match expr, single with
  | .compare _ _ _, _ | .member _ (_ :: _), _ | .isNull _, _ => exact own
  | .column _ _, _ | .bound _, _ | .member _ [], _ => cases ungrouped

end Interpretation

/-- **A lost group changes the meaning.** The text of a built expression that is not grouped and no
conjunction is also that of a grouped one which means something else. -/
theorem Expr.Buildable.exists_other {expr : Expr} (built : expr.Buildable)
    (single : expr.isConjunction = false) (ungrouped : expr.isGrouped = false) :
    ∃ other : Expr, other.Buildable ∧ other.isGrouped ∧ other.tokens = expr.tokens ∧
      (Interpretation.written expr.tokens).Satisfies expr ∧
      ¬ (Interpretation.written expr.tokens).Satisfies other := by
  obtain ⟨front, last, clauses, tokens, alone⟩ := built.hasClauses
  cases front with
  | nil => simp [(alone rfl).grouped] at ungrouped
  | cons first rest =>
      refine ⟨.all (first :: rest ++ [last]), buildable_all clauses,
        isGrouped_all (by simp) clauses, (tokens_all clauses).trans tokens.symm,
        Interpretation.satisfies_written single ungrouped, fun true => ?_⟩
      -- The last clause would be the whole text, which is longer.
      have final : last ∈ first :: rest ++ [last] := by simp
      have whole := Interpretation.tokens_eq_of_satisfies (clauses last final).single
        (Interpretation.satisfies_all _ |>.mp true last final)
      rw [tokens, List.map_append, Token.separated_append (by simp) (by simp)] at whole
      have longer := congrArg List.length whole
      simp [Token.separated] at longer
      omega

namespace Expr

/-- **Rendering keeps the meaning of grouped conditions.** No condition is written as nothing,
except a conjunction of nothing, which is not built. Grouped conditions with the same text and
parameters are true in the same interpretations. Of a built condition that is no conjunction the
text tells the meaning, among grouped ones, exactly when it is grouped. -/
theorem build_keeps_meaning (dialect : Dialect) (params : List Value) :
    (∀ expr : Expr, ((expr.build dialect params).1 = "" ↔ expr = .all []) ∧
      (expr.Buildable → (expr.build dialect params).1 ≠ "")) ∧
    (∀ first second : Expr, first.Plain → second.Plain → first.isGrouped → second.isGrouped →
      first.build dialect params = second.build dialect params →
        ∀ {Meaning : Type} (interpretation : Interpretation Meaning),
          interpretation.Satisfies first ↔ interpretation.Satisfies second) ∧
    ∀ expr : Expr, expr.Buildable → expr.isConjunction = false →
      (expr.isGrouped ↔ ∀ other : Expr, other.Buildable → other.isGrouped →
        expr.build dialect params = other.build dialect params →
          ∀ {Meaning : Type} (interpretation : Interpretation Meaning),
            interpretation.Satisfies expr ↔ interpretation.Satisfies other) := by
  have keeps {first second : Expr} (plain : first.Plain) (plain' : second.Plain)
      (grouped : first.isGrouped) (grouped' : second.isGrouped)
      (same : first.build dialect params = second.build dialect params) {Meaning : Type}
      (interpretation : Interpretation Meaning) :
      interpretation.Satisfies first ↔ interpretation.Satisfies second :=
    Interpretation.satisfies_iff_of_tokens_eq grouped grouped'
      (tokens_eq_of_build_eq plain plain' same)
  refine ⟨fun expr => ⟨build_eq_empty_iff, fun built empty => ?_⟩,
    fun _ _ plain plain' grouped grouped' same _ => keeps plain plain' grouped grouped' same,
    fun expr built single => ⟨fun grouped other built' grouped' same _ =>
      keeps built.plain built'.plain grouped grouped' same, fun told => ?_⟩⟩
  · obtain rfl := build_eq_empty_iff.mp empty
    exact built.conjuncts_ne_nil rfl
  · by_contra ungrouped
    obtain ⟨other, built', grouped', same, true, false⟩ :=
      built.exists_other single (Bool.eq_false_iff.mpr ungrouped)
    exact false ((told other built' grouped' (build_eq_of_tokens_eq dialect params same.symm) _).mp
      true)

/-- The text does not tell which membership in the empty list is meant, and neither is true. -/
theorem build_keeps_meaning_of_never :
    let title := (ofColumnName "books.title").equals (.text "Emma")
    let first := title.and (.member (ofColumnName "isbn") [])
    let second := title.and (.member (ofColumnName "summary") [])
    (first.build .postgres []).1 ≠ "" ∧
      (∀ {Meaning : Type} (interpretation : Interpretation Meaning),
        interpretation.Satisfies first ↔ interpretation.Satisfies second) ∧
      (Expr.isNull title).isGrouped := by
  intro title first second
  have built : title.Buildable := .compareValue .eq _ (.column "books.title" (by decide))
  have both : first.Buildable := .and built (.member [] (.column "isbn" (by decide)))
  have both' : second.Buildable := .and built (.member [] (.column "summary" (by decide)))
  obtain ⟨some, keeps, told⟩ := build_keeps_meaning .postgres []
  refine ⟨(some first).2 both, keeps first second both.plain both'.plain rfl rfl rfl, ?_⟩
  refine (told _ (.isNull built) rfl).mpr fun other built' grouped' same =>
    keeps _ other (Buildable.isNull built).plain built'.plain rfl grouped' same

/-- **Rendering `IS NULL` loses the group.** Whether two equations together are null, and the first
of them together with whether the second is null, are built and written the same. In a row of nulls
the former is true and the latter unknown. -/
theorem isNull_loses_group :
    let title := (ofColumnName "title").equals (.text "Emma")
    let isbn := (ofColumnName "isbn").equals (.text "014")
    let whole := Expr.isNull (title.and isbn)
    let last := title.and (.isNull isbn)
    let nulls := Interpretation.sql (fun _ _ => .null) fun _ left right => left == right
    whole.Buildable ∧ last.Buildable ∧
      whole.build .postgres [] =
        ("\"title\" = $1 AND \"isbn\" = $2 IS NULL", [.text "Emma", .text "014"]) ∧
      (∀ dialect, whole.build dialect [] = last.build dialect []) ∧
      nulls.Satisfies whole ∧ ¬ nulls.Satisfies last := by
  intro title isbn whole last nulls
  have built : title.Buildable := .compareValue .eq _ (.column "title" (by decide))
  have built' : isbn.Buildable := .compareValue .eq _ (.column "isbn" (by decide))
  refine ⟨.isNull (.and built built'), .and built (.isNull built'), rfl,
    fun dialect => build_eq_of_tokens_eq dialect [] rfl, rfl, nofun⟩

end Expr

end LazyMapper.Sql
