import LazyMapper.Proofs.Sql.Conjunctions
import LazyMapper.Proofs.Sql.Grouping
import LazyMapper.Proofs.Sql.SelectList

/-!
# The texts of queries by key

A query by primary key compares the columns of the key with consecutive parameters, one equation
for each value and in the order of the key (`Entity.queryByKey_text`). A query for related
instances looks a column up in the list of all its parameters (`LoadPlan.queryRelated_text`).

A select list quotes every column as a whole. In a condition a column is read like any name, so
that what stands before its first dot becomes a table (`Dialect.reference`). The two ways to write
a column agree exactly when it has no dot, and a condition over several columns is the text with
every one of them quoted exactly when none has (`Dialect.equations_eq_iff`).
-/

set_option autoImplicit false

namespace LazyMapper

/-! ## Columns in conditions -/

namespace Sql

namespace Dialect

variable (dialect : Dialect)

/-- A column as a condition writes it. -/
def reference (column : String) : String := ((Expr.ofColumnName column).build dialect []).1

/-- Equations of columns with parameters of consecutive numbers, when a column is written in a
given way. -/
def equations (write : String → String) (first : Nat) (columns : List String) : String :=
  " AND ".intercalate ((columns.zipIdx first).map fun item =>
    write item.1 ++ " = " ++ dialect.placeholder item.2)

/-- Membership of a column in the list of a number of parameters, when the column is written in a
given way. Nothing is a member of the empty list. -/
def membership (write : String → String) (column : String) (count : Nat) : String :=
  if count = 0 then "1 = 0"
  else write column ++ " IN (" ++
    ", ".intercalate ((List.range' 1 count).map dialect.placeholder) ++ ")"

/-- Columns of a table. -/
def selection (columns : List String) (table : String) : String :=
  "SELECT " ++ ", ".intercalate (columns.map dialect.quote) ++ " FROM " ++ table

end Dialect

namespace Expr

open Token

variable (dialect : Dialect)

theorem build_text (expr : Expr) :
    (expr.build dialect []).1 = Fragment.toText dialect (pieces dialect 0 expr.tokens) := by
  rw [show 0 = ([] : List Value).length from rfl, ← render_eq]
  rfl

theorem column_eq_reference {column : String} {table? : Option String} {name : String}
    (named : ofColumnName column = .column table? name) :
    dialect.column table? name = dialect.reference column := by
  rw [Dialect.reference, named]
  simp [build, render, Fragment.toText, Piece.toText]

theorem partText_equation (params : List Value) (item : String × Value) :
    (equation item).partText dialect params =
      dialect.reference item.1 ++ " = " ++ dialect.placeholder (params.length + 1) := by
  obtain ⟨table?, name, named⟩ := exists_column item.1
  rw [← column_eq_reference dialect named, equation, named]
  simp [partText, isConjunction, equals, compareValue, build, render, bind, Comparison.sign,
    Fragment.toText, Piece.toText, String.append_assoc]

theorem partTexts_equations (params : List Value) (items : List (String × Value)) :
    partTexts dialect params (items.map equation) =
      ((items.map Prod.fst).zipIdx (params.length + 1)).map fun item =>
        dialect.reference item.1 ++ " = " ++ dialect.placeholder item.2 := by
  induction items generalizing params with
  | nil => rfl
  | cons item rest ih =>
      rw [List.map_cons, partTexts_cons, partText_equation, ih, values_equation, List.length_append]
      rfl

/-- The text of equations that are joined. -/
theorem build_joined {first : String × Value} {rest : List (String × Value)} {condition : Expr}
    (joined : joined? ((first :: rest).map equation) = some condition) :
    (condition.build dialect []).1 =
      dialect.equations dialect.reference 1 ((first :: rest).map Prod.fst) := by
  obtain rfl := Option.some.inj joined
  have conjuncts : ((rest.map equation).foldl Expr.and (equation first)).conjuncts =
      (first :: rest).map equation := by
    rw [conjuncts_foldl_and, ← List.map_cons, List.flatMap_map]
    exact List.map_eq_flatMap.symm
  rw [build_eq_conjuncts, conjuncts, partTexts_equations]
  rfl

/-- The placeholders of values in front of other tokens. -/
theorem toText_valueTokens (count : Nat) (first : Value) (others : List Value)
    (rest : List Token) :
    Fragment.toText dialect (pieces dialect count (valueTokens (first :: others) ++ rest)) =
      ", ".intercalate ((List.range' (count + 1) (others.length + 1)).map dialect.placeholder) ++
        Fragment.toText dialect (pieces dialect (count + (others.length + 1)) rest) := by
  induction others generalizing count first with
  | nil => simp [valueTokens, separated, toText_pieces_cons, Token.text, next]
  | cons second others ih =>
      have later := ih (count + 1) second
      have front : valueTokens (first :: second :: others) ++ rest =
          .bound first :: .word .comma :: (valueTokens (second :: others) ++ rest) := rfl
      have numbers : List.range' (count + 1) (others.length + 1 + 1) =
          (count + 1) :: List.range' (count + 1 + 1) (others.length + 1) := List.range'_succ
      have behind : count + 1 + (others.length + 1) = count + (others.length + 1 + 1) := by omega
      rw [front, toText_pieces_cons, toText_pieces_cons, next, next, later, List.length_cons,
        numbers, behind, List.map_cons, String.intercalate_cons_of_ne_nil (by simp)]
      simp only [Token.text, Word.text, String.append_assoc]

/-- The text of a membership. -/
theorem build_member (column : String) (keys : List Value) :
    ((member (ofColumnName column) keys).build dialect []).1 =
      dialect.membership dialect.reference column keys.length := by
  cases keys with
  | nil => rfl
  | cons first rest =>
      obtain ⟨table?, name, named⟩ := exists_column column
      have end_eq (count : Nat) :
          Fragment.toText dialect (pieces dialect count [.word .closing]) = ")" := rfl
      rw [build_text, named, tokens, tokens, List.singleton_append, toText_pieces_cons,
        toText_pieces_cons, next, next, toText_valueTokens, end_eq, Token.text, Token.text,
        column_eq_reference dialect named]
      simp [Dialect.membership, Word.text, String.append_assoc]

end Expr

/-! ## Columns with dots -/

/-- What stands before a dot and is not quoted is not read as the inside of a quoted name, however
many marks are in front of it. -/
theorem append_dot_ne_doubleMarks {mark : Char} (other : mark ≠ '.')
    (front name rest rest' : List Char) (count : Nat) :
    front ++ '.' :: rest ≠
      List.replicate (count + 1) mark ++ (doubleMarks mark (front ++ '.' :: name) ++ rest') := by
  induction front generalizing count with
  | nil =>
      intro same
      exact other (List.cons.inj same).1.symm
  | cons char front ih =>
      intro same
      obtain ⟨rfl, later⟩ := List.cons.inj same
      rw [List.cons_append, doubleMarks, if_pos rfl] at later
      -- The mark in front is doubled in the quoted name, so one more is left of it.
      refine ih (count + 1) (later.trans ?_)
      simp [List.replicate_succ']

namespace Dialect

variable (dialect : Dialect)

theorem reference_of_dotless {column : String} (dotless : '.' ∉ column.toList) :
    dialect.reference column = dialect.quote column := by
  have named : Expr.ofColumnName column = .column none column := by
    rw [Expr.ofColumnName, Text.splitFirstDot_of_dotless dotless]
  exact (Expr.column_eq_reference dialect named).symm

/-- A column with a dot is not quoted as a whole in a condition, whatever stands behind it. -/
theorem reference_append_ne {column : String} (dotted : '.' ∈ column.toList)
    (rest rest' : String) : dialect.reference column ++ rest ≠ dialect.quote column ++ rest' := by
  obtain ⟨table, name, parts, dotless⟩ := List.eq_append_cons_of_mem dotted
  have named : Expr.ofColumnName column = .column (String.ofList table) (String.ofList name) := by
    rw [Expr.ofColumnName, parts, Text.splitFirstDot_append_dot dotless]
  intro same
  have front : (dialect.reference column).toList =
      table ++ '.' :: quoteChars dialect.quoteMark name := by
    rw [← Expr.column_eq_reference dialect named, Token.toList_column_some, String.toList_ofList,
      String.toList_ofList]
  have quoted : (dialect.quote column).toList =
      dialect.quoteMark :: doubleMarks dialect.quoteMark (table ++ '.' :: name) ++
        [dialect.quoteMark] := by
    rw [quote, String.toList_ofList, parts, quoteChars]
  have chars := congrArg String.toList same
  rw [String.toList_append, String.toList_append, front, quoted] at chars
  have other : dialect.quoteMark ≠ '.' := by cases dialect <;> decide
  refine append_dot_ne_doubleMarks other table name
    (quoteChars dialect.quoteMark name ++ rest.toList) (dialect.quoteMark :: rest'.toList) 0 ?_
  simpa using chars

/-- Only a column without dots is written the same way, with whatever stands behind it. -/
theorem reference_append_eq_iff (column rest rest' : String) :
    dialect.reference column ++ rest = dialect.quote column ++ rest' ↔
      '.' ∉ column.toList ∧ rest = rest' := by
  constructor
  · intro same
    have dotless : '.' ∉ column.toList := fun dotted =>
      dialect.reference_append_ne dotted rest rest' same
    rw [dialect.reference_of_dotless dotless] at same
    exact ⟨dotless, (String.append_right_inj _).mp same⟩
  · rintro ⟨dotless, rfl⟩
    rw [dialect.reference_of_dotless dotless]

theorem equations_cons_cons (write : String → String) (first : Nat) (column next : String)
    (columns : List String) : dialect.equations write first (column :: next :: columns) =
      write column ++ (" = " ++ dialect.placeholder first ++ " AND " ++
        dialect.equations write (first + 1) (next :: columns)) := by
  simp [equations, String.append_assoc]

/-- **Equations name their columns by their quoted names** exactly when no column has a dot. -/
theorem equations_eq_iff (first : Nat) (columns : List String) :
    dialect.equations dialect.reference first columns =
        dialect.equations dialect.quote first columns ↔
      ∀ column ∈ columns, '.' ∉ column.toList := by
  induction columns generalizing first with
  | nil => simp [equations]
  | cons column columns ih =>
      rw [List.forall_mem_cons]
      cases columns with
      | nil =>
          have alone (write : String → String) : dialect.equations write first [column] =
              write column ++ (" = " ++ dialect.placeholder first) := by
            simp [equations, String.append_assoc]
          rw [alone, alone, reference_append_eq_iff]
          simp
      | cons next columns =>
          rw [equations_cons_cons, equations_cons_cons, reference_append_eq_iff,
            String.append_right_inj, ih]

/-- A membership names its column by the quoted name exactly when there is nothing to look the
column up in or the column has no dot. -/
theorem membership_eq_iff (column : String) (count : Nat) :
    dialect.membership dialect.reference column count =
        dialect.membership dialect.quote column count ↔
      count = 0 ∨ '.' ∉ column.toList := by
  unfold membership
  by_cases none : count = 0
  · simp [none]
  · rw [if_neg none, if_neg none, String.append_assoc, String.append_assoc,
      String.append_assoc, String.append_assoc, reference_append_eq_iff]
    simp [none]

end Dialect

/-! ## Queries for columns of a table -/

/-- The text of a query for columns of a table. -/
theorem Query.select_text (dialect : Dialect) (columns : List String) (table : String)
    (condition? : Option Expr) :
    ((Query.select (columns.map .plain) [table] condition?).build dialect).1 =
      dialect.selection columns table ++
        (condition?.map fun condition => " WHERE " ++ (condition.build dialect []).1).getD "" := by
  have list : (columns.map SelectItem.plain).map (SelectItem.toText dialect) =
      columns.map dialect.quote := by
    rw [List.map_map]
    rfl
  rw [build_text, Query.select, selectListText, list, String.intercalate_singleton,
    Dialect.selection]
  cases condition? <;>
    simp [clausesText, renderCondition, renderOrder, renderLimit, Expr.build, Fragment.toText,
      Piece.toText]

end Sql

/-! ## Queries by key -/

namespace Entity

/-- The columns of the primary key attributes that a key has values for. -/
def keyColumns (entity : Entity) (key : List Value) : List String :=
  (entity.keyItems key).map Prod.fst

/-- The text of a query by columns of a key, when a column is written in a given way. -/
def keyQueryText (entity : Entity) (dialect : Sql.Dialect) (write : String → String)
    (columns keyColumns : List String) : String :=
  dialect.selection columns entity.table ++
    if keyColumns.isEmpty then "" else " WHERE " ++ dialect.equations write 1 keyColumns

/-- **The text of a query by primary key** has one equation for each value, in the order of the
key. -/
theorem queryByKey_text (entity : Entity) (dialect : Sql.Dialect) (columns : List String)
    (key : List Value) : ((entity.queryByKey columns key).build dialect).1 =
      entity.keyQueryText dialect dialect.reference columns (entity.keyColumns key) := by
  rw [queryByKey, Sql.Query.select_text, keyCondition?_eq, keyQueryText, keyColumns]
  cases entity.keyItems key with
  | nil => rfl
  | cons first rest =>
      rw [← Sql.Expr.build_joined dialect rfl]
      rfl

/-- A query by primary key quotes the columns of the key exactly when none of them has a dot. -/
theorem keyQueryText_eq_iff (entity : Entity) (dialect : Sql.Dialect)
    (columns keyColumns : List String) :
    entity.keyQueryText dialect dialect.reference columns keyColumns =
        entity.keyQueryText dialect dialect.quote columns keyColumns ↔
      ∀ column ∈ keyColumns, '.' ∉ column.toList := by
  rw [keyQueryText, keyQueryText, String.append_right_inj, ← dialect.equations_eq_iff 1]
  cases keyColumns with
  | nil => simp [Sql.Dialect.equations]
  | cons column rest => simp

end Entity

/-- **The text of a query for related instances** looks for the column among the keys. -/
theorem LoadPlan.queryRelated_text (plan : LoadPlan) (dialect : Sql.Dialect) (column : String)
    (keys : List Value) : ((plan.queryRelated column keys).build dialect).1 =
      dialect.selection (plan.columnsWith column) plan.entity.table ++ " WHERE " ++
        dialect.membership dialect.reference column keys.length := by
  rw [queryRelated, Sql.Query.select_text, Option.map_some, Option.getD_some,
    Sql.Expr.build_member, String.append_assoc]

end LazyMapper
