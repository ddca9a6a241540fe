/-!
# Binary floating point numbers by their bits

A number is kept as its bit pattern, so that two patterns can be told apart and nothing depends
on the machine's arithmetic. A `Layout` says how many bits hold the exponent and the fraction.
The reading of a pattern is exact: a finite number is `significand * 2 ^ exponent`, negated when
the sign bit is set.

There are two notions of equality. Patterns are compared by `=`. Numbers are compared by `==`,
which follows the standard: a pattern that is not a number equals nothing, and the two zeros are
equal.
-/

set_option autoImplicit false

namespace LazyMapper

/-- How the bits below the sign bit are divided. -/
structure Layout where
  exponentBits : Nat
  fractionBits : Nat
deriving DecidableEq, Repr

namespace Layout

/-- The layout of 32-bit numbers. -/
def single : Layout := ⟨8, 23⟩

/-- The layout of 64-bit numbers. -/
def double : Layout := ⟨11, 52⟩

/-- All bits, the sign bit included. -/
def width (layout : Layout) : Nat := 1 + layout.exponentBits + layout.fractionBits

/-- The exponent field of the powers of two from one up to two. -/
def bias (layout : Layout) : Nat := Nat.pow 2 (layout.exponentBits - 1) - 1

end Layout

/-- A floating point number of a layout, given by its bit pattern. -/
structure Ieee (layout : Layout) where
  bits : BitVec layout.width
deriving DecidableEq

/-- A 32-bit number. -/
abbrev Single := Ieee Layout.single

/-- A 64-bit number. -/
abbrev Double := Ieee Layout.double

namespace Ieee

variable {layout : Layout}

/-- The number with the given pattern, read as a natural number. -/
def ofPattern (layout : Layout) (pattern : Nat) : Ieee layout := ⟨BitVec.ofNat _ pattern⟩

/-- The pattern read as a natural number. -/
def toNat (number : Ieee layout) : Nat := number.bits.toNat

/-- The sign bit. -/
def isNegative (number : Ieee layout) : Bool :=
  number.toNat / Nat.pow 2 (layout.exponentBits + layout.fractionBits) == 1

/-- The exponent field. -/
def exponentField (number : Ieee layout) : Nat :=
  number.toNat / Nat.pow 2 layout.fractionBits % Nat.pow 2 layout.exponentBits

/-- The fraction field. -/
def fractionField (number : Ieee layout) : Nat := number.toNat % Nat.pow 2 layout.fractionBits

/-- The exponent field of infinities and of patterns that are no number. -/
def isSpecial (number : Ieee layout) : Bool :=
  number.exponentField == Nat.pow 2 layout.exponentBits - 1

/-- The pattern stands for no number. -/
def isNaN (number : Ieee layout) : Bool := number.isSpecial && number.fractionField != 0

/-- The pattern is one of the two zeros. -/
def isZero (number : Ieee layout) : Bool :=
  number.exponentField == 0 && number.fractionField == 0

/-- The integer that a power of two scales to the magnitude of a finite number. -/
def significand (number : Ieee layout) : Nat :=
  if number.exponentField = 0 then number.fractionField
  else number.fractionField + Nat.pow 2 layout.fractionBits

/-- The power of two that scales the significand. -/
def exponent (number : Ieee layout) : Int :=
  (max number.exponentField 1 : Nat) - (layout.bias + layout.fractionBits : Nat)

/-- The number below is nearer than the number above: the magnitude is a power of two whose
predecessor has a smaller exponent. -/
def isBinadeStart (number : Ieee layout) : Bool :=
  number.fractionField == 0 && decide (1 < number.exponentField)

/-- Equality of numbers, not of patterns. -/
protected def beq (left right : Ieee layout) : Bool :=
  !left.isNaN && !right.isNaN && (left.bits == right.bits || left.isZero && right.isZero)

instance : BEq (Ieee layout) := ⟨Ieee.beq⟩

/-- A pattern that is no number is not equal to itself, and every other pattern is. -/
theorem beq_self (number : Ieee layout) : (number == number) = !number.isNaN := by
  change Ieee.beq number number = _
  cases h : number.isNaN <;> simp [Ieee.beq, h]

end Ieee

end LazyMapper
