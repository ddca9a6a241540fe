import LazyMapper.Json.Basic

/-!
# SQL values

The values that rows carry and statements bind. Integers have the width of their column type,
floating point numbers are kept by their bits, dates and times are counts from a fixed origin.

`==` compares constructor and payload, with floating point payloads compared as numbers, so
`NaN` differs from itself and the two zeros are equal. Values that serve as keys are compared
otherwise; see `LazyMapper.Session.Key`.
-/

set_option autoImplicit false

namespace LazyMapper

/-- A SQL value. -/
inductive Value where
  | null
  | bool (flag : Bool)
  | tinyInt (number : Int8)
  | smallInt (number : Int16)
  | int (number : Int32)
  | bigInt (number : Int64)
  | float (number : Single)
  | double (number : Double)
  /-- A decimal number, kept as its text. -/
  | decimal (text : String)
  | text (content : String)
  | bytes (content : List UInt8)
  /-- Days since 1970. -/
  | date (days : Int32)
  /-- Microseconds since midnight. -/
  | time (microseconds : Int64)
  /-- Microseconds since 1970. -/
  | timestamp (microseconds : Int64)
  /-- Microseconds since 1970 in universal time. -/
  | timestampTz (microseconds : Int64)
  | uuid (content : Vector UInt8 16)
  | json (content : Json)
  | array (items : List Value)

namespace Value

instance : Inhabited Value := ⟨.null⟩

/-! ## Reading a payload -/

/-- The null value. -/
def isNull : Value → Bool
  | .null => true
  | _ => false

/-- The payload of any of the four integer types. -/
def asInt64 : Value → Option Int64
  | .tinyInt number => some number.toInt64
  | .smallInt number => some number.toInt64
  | .int number => some number.toInt64
  | .bigInt number => some number
  | _ => none

/-- The payload of a text or a decimal number. -/
def asText : Value → Option String
  | .text content | .decimal content => some content
  | _ => none

/-- The payload of a truth value. -/
def asBool : Value → Option Bool
  | .bool flag => some flag
  | _ => none

/-- The payload of a byte string. -/
def asBytes : Value → Option (List UInt8)
  | .bytes content => some content
  | _ => none

/-! ## Equality -/

mutual

/-- Equality of values, with floating point payloads compared as numbers. -/
protected def beq : Value → Value → Bool
  | .null, .null => true
  | .bool left, .bool right => left == right
  | .tinyInt left, .tinyInt right => left == right
  | .smallInt left, .smallInt right => left == right
  | .int left, .int right => left == right
  | .bigInt left, .bigInt right => left == right
  | .float left, .float right => left == right
  | .double left, .double right => left == right
  | .decimal left, .decimal right => left == right
  | .text left, .text right => left == right
  | .bytes left, .bytes right => left == right
  | .date left, .date right => left == right
  | .time left, .time right => left == right
  | .timestamp left, .timestamp right => left == right
  | .timestampTz left, .timestampTz right => left == right
  | .uuid left, .uuid right => left == right
  | .json left, .json right => left == right
  | .array left, .array right => Value.beqItems left right
  | _, _ => false
termination_by structural left => left

/-- Equality of arrays, item by item. -/
def beqItems : List Value → List Value → Bool
  | [], [] => true
  | left :: lefts, right :: rights => left.beq right && beqItems lefts rights
  | _, _ => false
termination_by structural left => left

end

instance : BEq Value := ⟨Value.beq⟩

/-! ## Values of plain data -/

/-- Data of one of the plain types that have a value form. -/
class ToValue (α : Type) where
  toValue : α → Value

export ToValue (toValue)

instance : ToValue Bool := ⟨.bool⟩
instance : ToValue Int32 := ⟨.int⟩
instance : ToValue Int64 := ⟨.bigInt⟩
instance : ToValue Double := ⟨.double⟩
instance : ToValue String := ⟨.text⟩
instance : ToValue (List UInt8) := ⟨.bytes⟩
instance : ToValue Json := ⟨.json⟩

/-- Absent data is the null value. -/
instance {α : Type} [ToValue α] : ToValue (Option α) := ⟨fun data => data.elim .null toValue⟩

end Value

end LazyMapper
