import LazyMapper.Value.Basic

/-!
# Equality of values

Floating point payloads are compared as numbers, at any depth of arrays and JSON. So a value need
not equal itself, but what is equal to one value is equal to each other: equality is transitive
(`Value.beq_trans`).
-/

set_option autoImplicit false

namespace LazyMapper

namespace Ieee

variable {layout : Layout} {first second third : Ieee layout}

theorem beq_eq_true : (first == second) = true ↔
    first.isNaN = false ∧ second.isNaN = false ∧
      (first = second ∨ first.isZero = true ∧ second.isZero = true) := by
  obtain ⟨bits⟩ := first
  obtain ⟨bits'⟩ := second
  change Ieee.beq _ _ = true ↔ _
  simp [Ieee.beq, and_assoc]

theorem beq_eq_false_of_nan (nan : first.isNaN = true) : (first == second) = false := by
  rw [← Bool.not_eq_true, beq_eq_true]
  rintro ⟨number, -⟩
  rw [nan] at number
  cases number

theorem beq_trans (front : (first == second) = true) (back : (second == third) = true) :
    (first == third) = true := by
  obtain ⟨number, -, same⟩ := beq_eq_true.mp front
  obtain ⟨-, number', same'⟩ := beq_eq_true.mp back
  refine beq_eq_true.mpr ⟨number, number', ?_⟩
  rcases same with rfl | ⟨zero, middle⟩
  · exact same'
  · rcases same' with rfl | ⟨-, zero'⟩
    · exact .inr ⟨zero, middle⟩
    · exact .inr ⟨zero, zero'⟩

end Ieee

namespace Json

mutual

theorem beq_trans : ∀ {first second third : Json},
    first.beq second = true → second.beq third = true → first.beq third = true
  | .null, second, _, front, back => by
      cases second with
      | null => exact back
      | _ => cases front
  | .bool _, second, _, front, back
  | .integer _, second, _, front, back
  | .string _, second, _, front, back => by
      cases second <;> first | cases front | (obtain rfl := eq_of_beq front; exact back)
  | .double _, second, third, front, back => by
      cases second with
      | double =>
          cases third with
          | double => exact Ieee.beq_trans front back
          | _ => cases back
      | _ => cases front
  | .array _, second, third, front, back => by
      cases second with
      | array =>
          cases third with
          | array => exact beqItems_trans front back
          | _ => cases back
      | _ => cases front
  | .object _, second, third, front, back => by
      cases second with
      | object =>
          cases third with
          | object => exact beqEntries_trans front back
          | _ => cases back
      | _ => cases front

theorem beqItems_trans : ∀ {first second third : List Json},
    beqItems first second = true → beqItems second third = true → beqItems first third = true
  | [], [], _, _, back => back
  | _ :: _, _ :: _, _ :: _, front, back => by
      obtain ⟨here, later⟩ := Bool.and_eq_true_iff.mp front
      obtain ⟨here', later'⟩ := Bool.and_eq_true_iff.mp back
      exact Bool.and_eq_true_iff.mpr ⟨beq_trans here here', beqItems_trans later later'⟩

theorem beqEntries_trans : ∀ {first second third : List (String × Json)},
    beqEntries first second = true → beqEntries second third = true →
      beqEntries first third = true
  | [], [], _, _, back => back
  | (_, _) :: _, (_, _) :: _, (_, _) :: _, front, back => by
      obtain ⟨both, later⟩ := Bool.and_eq_true_iff.mp front
      obtain ⟨both', later'⟩ := Bool.and_eq_true_iff.mp back
      obtain ⟨key, here⟩ := Bool.and_eq_true_iff.mp both
      obtain ⟨key', here'⟩ := Bool.and_eq_true_iff.mp both'
      refine Bool.and_eq_true_iff.mpr ⟨Bool.and_eq_true_iff.mpr ⟨?_, beq_trans here here'⟩,
        beqEntries_trans later later'⟩
      rw [eq_of_beq key]
      exact key'

end

end Json

namespace Value

mutual

/-- **Values equal to one value are equal to each other.** -/
theorem beq_trans : ∀ {first second third : Value},
    first.beq second = true → second.beq third = true → first.beq third = true
  | .null, second, _, front, back => by
      cases second with
      | null => exact back
      | _ => cases front
  | .bool _, second, _, front, back
  | .tinyInt _, second, _, front, back
  | .smallInt _, second, _, front, back
  | .int _, second, _, front, back
  | .bigInt _, second, _, front, back
  | .decimal _, second, _, front, back
  | .text _, second, _, front, back
  | .bytes _, second, _, front, back
  | .date _, second, _, front, back
  | .time _, second, _, front, back
  | .timestamp _, second, _, front, back
  | .timestampTz _, second, _, front, back
  | .uuid _, second, _, front, back => by
      cases second <;> first | cases front | (obtain rfl := eq_of_beq front; exact back)
  | .float _, second, third, front, back => by
      cases second with
      | float =>
          cases third with
          | float => exact Ieee.beq_trans front back
          | _ => cases back
      | _ => cases front
  | .double _, second, third, front, back => by
      cases second with
      | double =>
          cases third with
          | double => exact Ieee.beq_trans front back
          | _ => cases back
      | _ => cases front
  | .json _, second, third, front, back => by
      cases second with
      | json =>
          cases third with
          | json => exact Json.beq_trans front back
          | _ => cases back
      | _ => cases front
  | .array _, second, third, front, back => by
      cases second with
      | array =>
          cases third with
          | array => exact beqItems_trans front back
          | _ => cases back
      | _ => cases front

theorem beqItems_trans : ∀ {first second third : List Value},
    beqItems first second = true → beqItems second third = true → beqItems first third = true
  | [], [], _, _, back => back
  | _ :: _, _ :: _, _ :: _, front, back => by
      obtain ⟨here, later⟩ := Bool.and_eq_true_iff.mp front
      obtain ⟨here', later'⟩ := Bool.and_eq_true_iff.mp back
      exact Bool.and_eq_true_iff.mpr ⟨beq_trans here here', beqItems_trans later later'⟩

end

theorem isNull_of_beq {value other : Value} (same : (value == other) = true)
    (null : other.isNull = true) : value.isNull = true := by
  cases other with
  | null =>
      cases value with
      | null => rfl
      | _ => cases same
  | _ => cases null

/-! ## Equality and what stands in a value -/

mutual

/-- A value that is no array, or one that stands in the array at whatever depth, passes a test. -/
def anyLeaf (test : Value → Bool) : Value → Bool
  | .array items => anyLeafOf test items
  | leaf => test leaf
termination_by structural value => value

/-- Something that stands in one of the values passes a test. -/
def anyLeafOf (test : Value → Bool) : List Value → Bool
  | [] => false
  | item :: rest => item.anyLeaf test || anyLeafOf test rest
termination_by structural items => items

end

/-- The value is compared as a number, or has numbers in it that are. -/
def isFloatOrJson : Value → Bool
  | .float _ | .double _ | .json _ => true
  | _ => false

/-- The value is a pattern that stands for no number. -/
def isNaN : Value → Bool
  | .float number => number.isNaN
  | .double number => number.isNaN
  | _ => false

theorem anyLeafOf_eq_any (test : Value → Bool) (items : List Value) :
    anyLeafOf test items = items.any (anyLeaf test) := by
  induction items with
  | nil => rfl
  | cons item rest ih => rw [anyLeafOf, List.any_cons, ih]

theorem beqItems_eq (lefts rights : List Value) : beqItems lefts rights = (lefts == rights) := by
  induction lefts generalizing rights with
  | nil => cases rights <;> rfl
  | cons left lefts ih =>
      cases rights with
      | nil => rfl
      | cons right rights => rw [beqItems, ih, List.cons_beq_cons]; rfl

mutual

/-- Without floating point numbers and JSON, equal values are the same. -/
theorem beq_iff_eq_of_exact : ∀ {left right : Value},
    left.anyLeaf isFloatOrJson = false → (left.beq right = true ↔ left = right)
  | .float _, _, exact | .double _, _, exact | .json _, _, exact => by cases exact
  | .array lefts, right, exact => by
      cases right with
      | array rights =>
          rw [Value.beq, Value.array.injEq]
          exact beqItems_iff_eq_of_exact exact
      | _ => simp [Value.beq]
  | .null, right, _
  | .bool _, right, _
  | .tinyInt _, right, _
  | .smallInt _, right, _
  | .int _, right, _
  | .bigInt _, right, _
  | .decimal _, right, _
  | .text _, right, _
  | .bytes _, right, _
  | .date _, right, _
  | .time _, right, _
  | .timestamp _, right, _
  | .timestampTz _, right, _
  | .uuid _, right, _ => by cases right <;> simp [Value.beq]

theorem beqItems_iff_eq_of_exact : ∀ {lefts rights : List Value},
    anyLeafOf isFloatOrJson lefts = false → (beqItems lefts rights = true ↔ lefts = rights)
  | [], rights, _ => by cases rights <;> simp [beqItems]
  | left :: lefts, [], _ => by simp [beqItems]
  | left :: lefts, right :: rights, exact => by
      obtain ⟨here, later⟩ := Bool.or_eq_false_iff.mp exact
      rw [beqItems, Bool.and_eq_true, beq_iff_eq_of_exact here, beqItems_iff_eq_of_exact later,
        List.cons.injEq]

end

mutual

/-- A value with a pattern in it that stands for no number equals nothing. -/
theorem beq_eq_false_of_nan : ∀ {left right : Value},
    left.anyLeaf isNaN = true → left.beq right = false
  | .float _, right, nan => by
      cases right with
      | float => exact Ieee.beq_eq_false_of_nan nan
      | _ => rfl
  | .double _, right, nan => by
      cases right with
      | double => exact Ieee.beq_eq_false_of_nan nan
      | _ => rfl
  | .array lefts, right, nan => by
      cases right with
      | array rights => exact beqItems_eq_false_of_nan nan
      | _ => rfl

theorem beqItems_eq_false_of_nan : ∀ {lefts rights : List Value},
    anyLeafOf isNaN lefts = true → beqItems lefts rights = false
  | left :: lefts, [], _ => rfl
  | left :: lefts, right :: rights, nan => by
      rw [beqItems, Bool.and_eq_false_iff]
      exact (Bool.or_eq_true_iff.mp nan).imp beq_eq_false_of_nan beqItems_eq_false_of_nan

end

end Value

end LazyMapper
