import LazyMapper.Number.Ieee

/-!
# The shortest decimal text of a floating point number

Many decimal numbers round to one floating point number. Among them the text takes one on the
coarsest decimal grid, and on that grid the one nearest to the exact value, the upper one when
two are equally near. A decimal number is kept as `digits * 10 ^ power`.

The numbers that round to a given one form an interval around it. Its ends are half way to the
neighbours, and belong to it exactly when the significand is even. All is computed in integers:
`Rounding` holds the value and the two distances to the ends over one denominator.

How a decimal number is written out is a `NumberStyle`: which positions of the point are written
without an exponent, and what follows a whole number.
-/

set_option autoImplicit false

namespace LazyMapper

/-- The decimal number `digits * 10 ^ power`. -/
structure Decimal where
  digits : Nat
  power : Int
deriving DecidableEq, Repr

/-- A positive magnitude and the interval of all magnitudes that round to it. The magnitude is
`value * 2 ^ scale`, the ends lie `below` and `above` of it in the same unit, and `closed` says
whether the ends round to it as well. -/
structure Rounding where
  value : Nat
  below : Nat
  above : Nat
  scale : Int
  closed : Bool
deriving Repr

namespace Rounding

/-- The interval of a finite number other than zero, in quarters of its last place. -/
def ofIeee {layout : Layout} (number : Ieee layout) : Rounding where
  value := 4 * number.significand
  below := if number.isBinadeStart then 1 else 2
  above := 2
  scale := number.exponent - 2
  closed := number.significand % 2 == 0

/-- What one unit of the interval amounts to on the grid of `10 ^ power`, as a fraction. -/
def unitOn (rounding : Rounding) (power : Int) : Nat × Nat :=
  (Nat.pow 2 rounding.scale.toNat * Nat.pow 10 (-power).toNat,
    Nat.pow 2 (-rounding.scale).toNat * Nat.pow 10 power.toNat)

/-- The multiple of `10 ^ power` given by `digits` rounds to the magnitude. -/
def admits (rounding : Rounding) (power : Int) (digits : Nat) : Bool :=
  let (unit, whole) := rounding.unitOn power
  let point := digits * whole
  let lower := (rounding.value - rounding.below) * unit
  let upper := (rounding.value + rounding.above) * unit
  if rounding.closed then lower ≤ point && point ≤ upper else lower < point && point < upper

/-- The multiple of `10 ^ power` nearest to the magnitude among its two neighbours on that grid
which round to it. The upper one is taken when both are equally near. -/
def nearestOn (rounding : Rounding) (power : Int) : Option Nat :=
  let (unit, whole) := rounding.unitOn power
  let exact := rounding.value * unit
  let floor := exact / whole
  let remainder := exact % whole
  match rounding.admits power floor, rounding.admits power (floor + 1) with
  | true, true => some (if remainder * 2 < whole then floor else floor + 1)
  | true, false => some floor
  | false, true => some (floor + 1)
  | false, false => none

/-- The first hit on the grids `10 ^ power`, `10 ^ (power - 1)` and so on, `steps` of them. -/
def search (rounding : Rounding) : Nat → Int → Option Decimal
  | 0, _ => none
  | steps + 1, power =>
    match rounding.nearestOn power with
    | some digits => some ⟨digits, power⟩
    | none => rounding.search steps (power - 1)

/-- The coarsest grid that can meet the interval: the number of digits of the whole part of
its upper end. -/
def coarsest (rounding : Rounding) : Nat :=
  let (unit, whole) := rounding.unitOn 0
  (Nat.toDigits 10 ((rounding.value + rounding.above) * unit / whole)).length

/-- The shortest decimal number that rounds to the magnitude. The magnitude itself lies on the
grid of `10 ^ scale`, so the search ends there at the latest. -/
def shortest (rounding : Rounding) : Decimal :=
  let start := rounding.coarsest
  (rounding.search (start + rounding.scale.natAbs + 1) start).getD ⟨0, 0⟩

end Rounding

/-- How a decimal number is written. -/
structure NumberStyle where
  /-- The exponent is written unless the point stands at a position in this range, counted from
  the left end of the digits; `none` never writes an exponent. -/
  positional : Option (Int × Int)
  /-- What follows the digits of a whole number. -/
  wholeSuffix : String

namespace NumberStyle

/-- A number without sign, its digits and the position of the point among them. -/
def writePositional (style : NumberStyle) (digits : List Char) (point : Int) : List Char :=
  if digits.length ≤ point then
    digits ++ List.replicate (point - digits.length).toNat '0' ++ style.wholeSuffix.toList
  else if 0 < point then
    digits.take point.toNat ++ '.' :: digits.drop point.toNat
  else
    '0' :: '.' :: List.replicate (-point).toNat '0' ++ digits

/-- One digit before the point and the exponent behind the letter `e`. -/
def writeExponent (digits : List Char) (point : Int) : List Char :=
  digits.take 1 ++ (if digits.length = 1 then [] else '.' :: digits.drop 1) ++
    'e' :: (toString (point - 1)).toList

/-- The text of a decimal number. -/
def write (style : NumberStyle) (decimal : Decimal) : List Char :=
  let digits := Nat.toDigits 10 decimal.digits
  let point := digits.length + decimal.power
  match style.positional with
  | none => style.writePositional digits point
  | some (lowest, highest) =>
    if lowest ≤ point ∧ point ≤ highest then style.writePositional digits point
    else writeExponent digits point

end NumberStyle

namespace Ieee

variable {layout : Layout}

/-- The shortest decimal number that reads back as the magnitude of a finite number. -/
def toDecimal (number : Ieee layout) : Decimal :=
  if number.isZero then ⟨0, 0⟩ else (Rounding.ofIeee number).shortest

/-- The text of a number in a style: `NaN`, `inf` and `-inf` when it is not finite, otherwise
the sign and the shortest decimal digits. -/
def toText (style : NumberStyle) (number : Ieee layout) : String :=
  if number.isNaN then "NaN"
  else
    let magnitude := if number.isSpecial then "inf".toList else style.write number.toDecimal
    String.ofList (if number.isNegative then '-' :: magnitude else magnitude)

end Ieee

end LazyMapper
