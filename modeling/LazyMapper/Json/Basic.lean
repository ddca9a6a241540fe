import LazyMapper.Number.Shortest

/-!
# JSON values

The payload of JSON columns. Integers and doubles are different values, as their texts are.
The entries of an object stand in the order of their keys; `ofEntries` puts them there, a later
entry replacing an earlier one with the same key.

`text` writes a value without blanks. A string keeps every character but the quotation mark, the
backslash and the characters below the blank.
-/

set_option autoImplicit false

namespace LazyMapper

/-- A JSON value. -/
inductive Json where
  | null
  | bool (flag : Bool)
  | integer (value : Int)
  | double (value : Double)
  | string (text : String)
  | array (items : List Json)
  | object (entries : List (String × Json))

namespace Json

instance : Inhabited Json := ⟨.null⟩

/-- Puts an entry into entries ordered by key, in place of one with the same key. -/
def insertEntry (key : String) (value : Json) : List (String × Json) → List (String × Json)
  | [] => [(key, value)]
  | (other, found) :: rest =>
    if key = other then (key, value) :: rest
    else if key < other then (key, value) :: (other, found) :: rest
    else (other, found) :: insertEntry key value rest

/-- The object with the given entries, ordered by key. -/
def ofEntries (entries : List (String × Json)) : Json :=
  .object (entries.foldl (fun sorted entry => insertEntry entry.1 entry.2 sorted) [])

/-! ## Equality of values -/

mutual

/-- Equality of values. Doubles are compared as numbers. -/
protected def beq : Json → Json → Bool
  | .null, .null => true
  | .bool left, .bool right => left == right
  | .integer left, .integer right => left == right
  | .double left, .double right => left == right
  | .string left, .string right => left == right
  | .array left, .array right => Json.beqItems left right
  | .object left, .object right => Json.beqEntries left right
  | _, _ => false
termination_by structural left => left

/-- Equality of arrays, item by item. -/
def beqItems : List Json → List Json → Bool
  | [], [] => true
  | left :: lefts, right :: rights => left.beq right && beqItems lefts rights
  | _, _ => false
termination_by structural left => left

/-- Equality of objects, entry by entry. -/
def beqEntries : List (String × Json) → List (String × Json) → Bool
  | [], [] => true
  | (leftKey, left) :: lefts, (rightKey, right) :: rights =>
    leftKey == rightKey && left.beq right && beqEntries lefts rights
  | _, _ => false
termination_by structural left => left

end

instance : BEq Json := ⟨Json.beq⟩

/-! ## Text -/

/-- Doubles are written with a point and at least one place, from `1e-5` up to `1e16` without
an exponent. -/
def doubleStyle : NumberStyle := ⟨some (-4, 16), ".0"⟩

/-- The digit of a value below sixteen, in lower case. -/
def hexDigit (value : Nat) : Char := Nat.digitChar value

/-- A character inside a quoted string. -/
def escape (char : Char) : List Char :=
  match char with
  | '"' => ['\\', '"']
  | '\\' => ['\\', '\\']
  | '\x08' => ['\\', 'b']
  | '\x0c' => ['\\', 'f']
  | '\n' => ['\\', 'n']
  | '\r' => ['\\', 'r']
  | '\t' => ['\\', 't']
  | other =>
    if other.toNat < 32 then
      ['\\', 'u', '0', '0', hexDigit (other.toNat / 16), hexDigit (other.toNat % 16)]
    else [other]

/-- A string in quotation marks. -/
def quote (text : String) : String :=
  String.ofList ('"' :: text.toList.flatMap escape ++ ['"'])

mutual

/-- The text of a value, without blanks. -/
def text : Json → String
  | .null => "null"
  | .bool flag => if flag then "true" else "false"
  | .integer value => toString value
  | .double value => value.toText doubleStyle
  | .string content => quote content
  | .array items => "[" ++ ",".intercalate (itemTexts items) ++ "]"
  | .object entries => "\x7b" ++ ",".intercalate (entryTexts entries) ++ "\x7d"
termination_by structural value => value

/-- The texts of the items of an array. -/
def itemTexts : List Json → List String
  | [] => []
  | item :: rest => item.text :: itemTexts rest
termination_by structural items => items

/-- The texts of the entries of an object. -/
def entryTexts : List (String × Json) → List String
  | [] => []
  | (key, value) :: rest => (quote key ++ ":" ++ value.text) :: entryTexts rest
termination_by structural entries => entries

end

end Json

end LazyMapper
