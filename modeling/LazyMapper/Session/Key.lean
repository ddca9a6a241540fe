import LazyMapper.Model.Basic

/-!
# Identity keys

A key tells a model type and a hash of the values of a primary key. The values themselves are not
kept: keys are equal when the types are the same and the hashes are.

What is hashed is one flat list of tokens, the digest of the values. Every value begins with the
number of its constructor and every list with its length. A number is hashed by the bytes of its
width, a floating point number by its bits, JSON by its text.

Which hash it is does not matter to the library, so it is a parameter. `LazyMapper.Session.Hash`
gives the one that is used.
-/

set_option autoImplicit false

namespace LazyMapper

/-- A part of a digest. -/
inductive KeyToken where
  /-- The number of a constructor. -/
  | tag (number : Nat)
  /-- The length of a list. -/
  | length (count : Nat)
  | flag (flag : Bool)
  /-- An integer with its width in bytes. -/
  | integer (width : Nat) (number : Int)
  /-- The bit pattern of a floating point number with its width in bytes. -/
  | bits (width : Nat) (pattern : Nat)
  | text (content : String)
  | bytes (content : List UInt8)
deriving DecidableEq, Repr

/-- What is hashed of the values of a primary key. -/
abbrev Digest := List KeyToken

namespace Value

mutual

/-- The tokens of a value. -/
def digest : Value → Digest
  | .null => [.tag 0]
  | .bool flag => [.tag 1, .flag flag]
  | .tinyInt number => [.tag 2, .integer 1 number.toInt]
  | .smallInt number => [.tag 3, .integer 2 number.toInt]
  | .int number => [.tag 4, .integer 4 number.toInt]
  | .bigInt number => [.tag 5, .integer 8 number.toInt]
  | .float number => [.tag 6, .bits 4 number.toNat]
  | .double number => [.tag 7, .bits 8 number.toNat]
  | .decimal content => [.tag 8, .text content]
  | .text content => [.tag 9, .text content]
  | .bytes content => [.tag 10, .bytes content]
  | .date days => [.tag 11, .integer 4 days.toInt]
  | .time microseconds => [.tag 12, .integer 8 microseconds.toInt]
  | .timestamp microseconds => [.tag 13, .integer 8 microseconds.toInt]
  | .timestampTz microseconds => [.tag 14, .integer 8 microseconds.toInt]
  | .uuid content => [.tag 15, .bytes content.toList]
  | .json content => [.tag 16, .text content.text]
  | .array items => .tag 17 :: .length items.length :: digestItems items
termination_by structural value => value

/-- The tokens of values one after the other. -/
def digestItems : List Value → Digest
  | [] => []
  | item :: rest => item.digest ++ digestItems rest
termination_by structural items => items

end

end Value

/-- The digest of the values of a primary key. -/
def Digest.ofValues (values : List Value) : Digest :=
  .length values.length :: Value.digestItems values

/-- The identity of an instance in a session. -/
@[ext]
structure Key where
  typeName : String
  hash : UInt64
deriving Repr

namespace Key

instance instDecidableEq : DecidableEq Key := fun _ _ => decidable_of_iff' _ Key.ext_iff

variable [Hashable Digest]

/-- The key of a model and the values of a primary key. -/
def ofValues (model : Model) (values : List Value) : Key :=
  ⟨model.entity.typeName, Hashable.hash (Digest.ofValues values)⟩

/-- The key of a record. -/
def ofRecord (model : Model) (record : Record) : Key := ofValues model (model.keyOf record)

end Key

end LazyMapper
