import LazyMapper.Model.Catalogue
import LazyMapper.Proofs.Session.Keying
import LazyMapper.Proofs.Value.Equality
import LazyMapper.Session.Hash

/-!
# Keys against equality

Keys tell values apart that are not identical, and only those, as far as the hash tells digests
apart. Identity of values is described by cases (`Value.identical_iff`): arrays are compared item by
item, JSON by its text, and all else by its payload, which for a floating point number are its bits.
It differs from equality only where floating point numbers or JSON stand in a value, and there a
value need not equal itself while its key does. Arrays keep their bounds in a key, since each adds
tokens of its own to the digest (`Key.separates`).
-/

set_option autoImplicit false

namespace LazyMapper

namespace Value

/-! ## Identity by cases -/

theorem Identical.items_refl (items : List Value) : List.Forall₂ Identical items items :=
  List.forall₂_same.mpr fun value _ => .same value

/-- **Identity of values by cases.** -/
theorem identical_iff {left right : Value} : left.Identical right ↔
    match left, right with
    | .json left, .json right => left.text = right.text
    | .array lefts, .array rights => List.Forall₂ Identical lefts rights
    | left, right => left = right := by
  constructor
  · rintro (value | texts | items)
    · cases left with
      | array items => exact Identical.items_refl items
      | _ => rfl
    · exact texts
    · exact items
  · split
    · exact .json
    · exact .array
    · rintro rfl
      exact .same _

mutual

/-- Without floating point numbers and JSON, identical values are the same. -/
theorem identical_iff_eq_of_exact : ∀ {left right : Value},
    left.anyLeaf isFloatOrJson = false → (left.Identical right ↔ left = right)
  | .float _, _, exact | .double _, _, exact | .json _, _, exact => by cases exact
  | .array lefts, right, exact => by
      cases right with
      | array rights =>
          rw [identical_iff, array.injEq]
          exact identicalItems_iff_eq_of_exact exact
      | _ => exact identical_iff
  | .null, _, _
  | .bool _, _, _
  | .tinyInt _, _, _
  | .smallInt _, _, _
  | .int _, _, _
  | .bigInt _, _, _
  | .decimal _, _, _
  | .text _, _, _
  | .bytes _, _, _
  | .date _, _, _
  | .time _, _, _
  | .timestamp _, _, _
  | .timestampTz _, _, _
  | .uuid _, _, _ => identical_iff

theorem identicalItems_iff_eq_of_exact : ∀ {lefts rights : List Value},
    anyLeafOf isFloatOrJson lefts = false → (List.Forall₂ Identical lefts rights ↔ lefts = rights)
  | [], rights, _ => by rw [List.forall₂_nil_left_iff, eq_comm]
  | left :: lefts, [], _ => by simp
  | left :: lefts, right :: rights, exact => by
      obtain ⟨here, later⟩ := Bool.or_eq_false_iff.mp exact
      rw [List.forall₂_cons, identical_iff_eq_of_exact here, identicalItems_iff_eq_of_exact later,
        List.cons.injEq]

end

/-! ## Digests of arrays -/

theorem digestItems_append (front back : List Value) :
    digestItems (front ++ back) = digestItems front ++ digestItems back := by
  induction front with
  | nil => rfl
  | cons value front ih => rw [List.cons_append, digestItems, ih, digestItems, List.append_assoc]

/-- An array adds two tokens to the digest of its items. -/
theorem digestItems_array_ne (front items back : List Value) :
    digestItems (front ++ .array items :: back) ≠ digestItems (front ++ items ++ back) := by
  intro same
  have lengths := congrArg List.length same
  simp only [digestItems_append, digestItems, digest, List.length_append,
    List.length_cons] at lengths
  omega

end Value

/-! ## Keys -/

namespace Key

/-- **Keys tell apart exactly what is not identical**, among values that the hash tells apart. Two
keys are equal when the types are the same and the values are identical one by one, as many on each
side. So arrays are told apart by how they group their items, and never taken for their items
themselves. Values with a pattern in them that stands for no number are equal to no values, but
their key is their key. Without floating point numbers and JSON, equal keys of one type are keys of
equal values. -/
theorem separates [Hashable Digest] {keys : Set (List Value)} (apart : Apart keys)
    (model other : Model) (values others : List Value) :
    (values ∈ keys → others ∈ keys →
      (ofValues model values = ofValues other others ↔
        model.entity.typeName = other.entity.typeName ∧
          List.Forall₂ Value.Identical values others)) ∧
    (∀ groups groups' : List (List Value), groups.map .array ∈ keys → groups'.map .array ∈ keys →
      (ofValues model (groups.map .array) = ofValues other (groups'.map .array) ↔
        model.entity.typeName = other.entity.typeName ∧
          List.Forall₂ (List.Forall₂ Value.Identical) groups groups')) ∧
    (∀ front items back, front ++ .array items :: back ∈ keys → front ++ items ++ back ∈ keys →
      ofValues model (front ++ .array items :: back) ≠ ofValues other (front ++ items ++ back)) ∧
    (values.any (·.anyLeaf Value.isNaN) →
      (values == others) = false ∧ ofValues model values = ofValues model values) ∧
    (values.any (·.anyLeaf Value.isFloatOrJson) = false → values ∈ keys → others ∈ keys →
      (ofValues model values = ofValues other others ↔
        model.entity.typeName = other.entity.typeName ∧ (values == others) = true)) := by
  have arrays (items items' : List Value) :
      (Value.array items).Identical (.array items') ↔ List.Forall₂ Value.Identical items items' :=
    Value.identical_iff
  refine ⟨ofValues_eq_iff apart, fun groups groups' first second => ?_,
    fun front items back first second same => ?_, fun nan => ⟨?_, rfl⟩,
    fun exact first second => ?_⟩
  · rw [ofValues_eq_iff apart first second, List.forall₂_map_left_iff,
      List.forall₂_map_right_iff]
    simp only [arrays]
  · have digests := Digest.ofValues_eq_iff.mpr ((ofValues_eq_iff apart first second).mp same).2
    exact Value.digestItems_array_ne front items back (List.cons.inj digests).2
  · rw [← Value.anyLeafOf_eq_any] at nan
    rw [← Value.beqItems_eq, Value.beqItems_eq_false_of_nan nan]
  · rw [← Value.anyLeafOf_eq_any] at exact
    rw [ofValues_eq_iff apart first second, Value.identicalItems_iff_eq_of_exact exact,
      ← Value.beqItems_eq, Value.beqItems_iff_eq_of_exact exact]

end Key

/-- A pattern that stands for no number, alone in an array. -/
def Catalogue.noNumber : Value := .array [.double (.ofPattern .double 0x7ff8000000000000)]

/-- Keys of reviews that are arrays, or differ in the width of a number only. -/
def Catalogue.reviewKeys : List (List Value) :=
  [[.array [.bigInt 1], .array [.bigInt 2]], [.array [.bigInt 1, .bigInt 2]],
    [.int 1, .text "en"], [.bigInt 1, .text "en"]]

theorem Catalogue.reviewKeys_apart : Key.Apart {values | values ∈ reviewKeys} :=
  Key.apart_of_nodup (by decide +kernel)

/-- These keys are different, and one that holds a pattern that is no number is itself. -/
theorem Catalogue.review_keys_apart :
    Key.ofValues review [.array [.bigInt 1], .array [.bigInt 2]] ≠
      Key.ofValues review [.array [.bigInt 1, .bigInt 2]] ∧
    ([noNumber] == [noNumber]) = false ∧
    Key.ofValues review [noNumber] = Key.ofValues review [noNumber] ∧
    Key.ofValues review [.int 1, .text "en"] ≠ Key.ofValues review [.bigInt 1, .text "en"] := by
  obtain ⟨-, groups, -, nan, -⟩ :=
    Key.separates reviewKeys_apart review review [noNumber] [noNumber]
  obtain ⟨-, -, -, -, exact⟩ :=
    Key.separates reviewKeys_apart review review [.int 1, .text "en"] [.bigInt 1, .text "en"]
  refine ⟨fun same => ?_, (nan (by decide)).1, (nan (by decide)).2, fun same => ?_⟩
  · have grouped := ((groups [[.bigInt 1], [.bigInt 2]] [[.bigInt 1, .bigInt 2]]
      (.head _) (.tail _ (.head _))).mp same).2
    exact absurd grouped.length_eq (by decide)
  · have equal := (exact (by decide) (.tail _ (.tail _ (.head _)))
      (.tail _ (.tail _ (.tail _ (.head _))))).mp same
    exact absurd equal.2 (by decide)

end LazyMapper
