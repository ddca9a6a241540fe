import LazyMapper.Value.Basic

/-!
# Result rows

A row is a list of column names and a list of values in the same order. The two need not have
the same length: a name without a value stands for no value, and a value without a name is not
found by name. When a name occurs twice, the first occurrence counts.

Statements over several entities label their columns with the entity's table. `stripLabel` takes
the columns with one label out of such a row and removes the label.
-/

set_option autoImplicit false

namespace LazyMapper

/-- A result row. -/
structure Row where
  columns : List String
  values : List Value

namespace Row

/-- Equality of names and values, the values as numbers where they are numbers. -/
protected def beq (left right : Row) : Bool :=
  left.columns == right.columns && left.values == right.values

instance : BEq Row := ⟨Row.beq⟩

/-- The number of columns. -/
def width (row : Row) : Nat := row.columns.length

/-- The row has no column. -/
def isEmpty (row : Row) : Bool := row.columns.isEmpty

/-- The value at a position. -/
def valueAt? (row : Row) (position : Nat) : Option Value := row.values[position]?

/-- The position of the first column with a name. -/
def position? (row : Row) (name : String) : Option Nat := row.columns.findIdx? (· == name)

/-- The value of the first column with a name. -/
def find? (row : Row) (name : String) : Option Value :=
  (row.position? name).bind row.valueAt?

/-- The value of the first column with a name, null when there is none. -/
def valueOf (row : Row) (name : String) : Value := (row.find? name).getD .null

/-- Some column has the name. -/
def selects (row : Row) (name : String) : Bool := row.columns.contains name

/-- What remains of a text after a label in front of it. -/
def dropLabel? (label text : String) : Option String :=
  if label.toList.isPrefixOf text.toList then
    some (String.ofList (text.toList.drop label.toList.length))
  else none

/-- The labelled columns among the given ones, without the label, each with its value; a column
for which there is no value has the null value. -/
def labelled (label : String) : List String → List Value → List (String × Value)
  | [], _ => []
  | column :: columns, values =>
    let rest := labelled label columns values.tail
    match dropLabel? label column with
    | some name => (name, values.headD .null) :: rest
    | none => rest

/-- The row of the labelled columns, in their order and without the label. -/
def stripLabel (row : Row) (label : String) : Row where
  columns := (labelled label row.columns row.values).map Prod.fst
  values := (labelled label row.columns row.values).map Prod.snd

end Row

end LazyMapper
