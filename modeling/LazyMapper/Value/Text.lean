import LazyMapper.Value.Basic

/-!
# The display text of values

The text stands in messages and is not meant to be read back: text values are put in single
quotes as they are, byte strings show their length only.
-/

set_option autoImplicit false

namespace LazyMapper.Value

/-- Numbers never have an exponent, and whole numbers no point. -/
def numberStyle : NumberStyle := ⟨none, ""⟩

/-- A byte as two hexadecimal digits in lower case. -/
def hexByte (byte : UInt8) : List Char :=
  [Json.hexDigit (byte.toNat / 16), Json.hexDigit (byte.toNat % 16)]

mutual

/-- The display text of a value. -/
def display : Value → String
  | .null => "NULL"
  | .bool flag => if flag then "true" else "false"
  | .tinyInt number => toString number.toInt
  | .smallInt number => toString number.toInt
  | .int number => toString number.toInt
  | .bigInt number => toString number.toInt
  | .float number => number.toText numberStyle
  | .double number => number.toText numberStyle
  | .decimal content => content
  | .text content => "'" ++ content ++ "'"
  | .bytes content => "<" ++ toString content.length ++ " bytes>"
  | .date days => "date(" ++ toString days.toInt ++ ")"
  | .time microseconds => "time(" ++ toString microseconds.toInt ++ ")"
  | .timestamp microseconds => "ts(" ++ toString microseconds.toInt ++ ")"
  | .timestampTz microseconds => "ts(" ++ toString microseconds.toInt ++ ")"
  | .uuid content => String.ofList (content.toList.flatMap hexByte)
  | .json content => content.text
  | .array items => "[" ++ ", ".intercalate (displayItems items) ++ "]"
termination_by structural value => value

/-- The display texts of the items of an array. -/
def displayItems : List Value → List String
  | [] => []
  | item :: rest => item.display :: displayItems rest
termination_by structural items => items

end

/-- A key in messages: the display texts of its values in parentheses. -/
def displayKey (values : List Value) : String :=
  "(" ++ ", ".intercalate (values.map display) ++ ")"

end LazyMapper.Value
