import Mathlib.Data.List.Nodup
import Mathlib.Data.Set.Function
import LazyMapper.Session.Key

/-!
# What keys tell apart

The digest of a value is one flat list of tokens, arrays included. Behind a digest anything may
stand: where it ends shows from the digest itself, as the length of an array stands in front of
its items (`Value.digest_append_inj`). So two lists of values have one digest exactly when they
are identical one by one (`Digest.ofValues_eq_iff`).

A key holds the hash of a digest only, and no hash of one word tells all digests apart. Where keys
are to tell values apart it is assumed of the hash that it does so for the lists of values in
question (`Key.Apart`), and then keys are equal exactly when the types are the same and the values
identical (`Key.ofValues_eq_iff`).
-/

set_option autoImplicit false

namespace LazyMapper

/-- Numbers with one pattern are equal. -/
theorem Ieee.toNat_inj {layout : Layout} {left right : Ieee layout} :
    left.toNat = right.toNat ↔ left = right := by
  rw [Ieee.toNat, Ieee.toNat, BitVec.toNat_inj, Ieee.mk.injEq]

namespace Value

/-- The values are identical: made by the same constructor from the same payload, where arrays are
compared item by item and JSON by its text. -/
inductive Identical : Value → Value → Prop where
  | same (value : Value) : Identical value value
  | json {left right : Json} (texts : left.text = right.text) :
      Identical (.json left) (.json right)
  | array {lefts rights : List Value} (items : List.Forall₂ Identical lefts rights) :
      Identical (.array lefts) (.array rights)

/-! ## Identical values have one digest -/

mutual

theorem digest_eq_of_identical :
    ∀ (left right : Value), left.Identical right → left.digest = right.digest
  | _, _, .same _ => rfl
  | _, _, .json texts => by rw [digest, digest, texts]
  | .array lefts, .array rights, .array items => by
      rw [digest, digest, items.length_eq, digestItems_eq_of_identical lefts rights items]

theorem digestItems_eq_of_identical : ∀ lefts rights : List Value,
    List.Forall₂ Identical lefts rights → digestItems lefts = digestItems rights
  | [], [], .nil => rfl
  | left :: lefts, right :: rights, .cons first others => by
      rw [digestItems, digestItems, digest_eq_of_identical left right first,
        digestItems_eq_of_identical lefts rights others]

end

/-! ## A digest tells its value -/

mutual

/-- **The digest of a value tells the value and where it ends**, whatever stands behind it. -/
theorem digest_append_inj : ∀ (left right : Value) {rest rest' : Digest},
    left.digest ++ rest = right.digest ++ rest' → left.Identical right ∧ rest = rest'
  | .array lefts, right, _, _, same => by
      cases right with
      | array rights =>
          simp only [digest, List.cons_append, List.cons.injEq, true_and,
            KeyToken.length.injEq] at same
          obtain ⟨items, later⟩ := digestItems_append_inj lefts rights same.1 same.2
          exact ⟨.array items, later⟩
      | _ => simp [digest] at same
  | .json left, right, _, _, same => by
      cases right with
      | json right =>
          simp only [digest, List.cons_append, List.nil_append, List.cons.injEq, true_and,
            KeyToken.text.injEq] at same
          exact ⟨.json same.1, same.2⟩
      | _ => simp [digest] at same
  | .null, right, _, _, same => by
      cases right with
      | null => exact ⟨.same _, (List.cons.inj same).2⟩
      | _ => simp [digest] at same
  | .bool _, right, _, _, same
  | .tinyInt _, right, _, _, same
  | .smallInt _, right, _, _, same
  | .int _, right, _, _, same
  | .bigInt _, right, _, _, same
  | .float _, right, _, _, same
  | .double _, right, _, _, same
  | .decimal _, right, _, _, same
  | .text _, right, _, _, same
  | .bytes _, right, _, _, same
  | .date _, right, _, _, same
  | .time _, right, _, _, same
  | .timestamp _, right, _, _, same
  | .timestampTz _, right, _, _, same
  | .uuid _, right, _, _, same => by
      -- The tags tell the constructor, and its only token tells the payload.
      cases right <;> simp [digest, Int8.toInt_inj, Int16.toInt_inj, Int32.toInt_inj,
        Int64.toInt_inj, Ieee.toNat_inj, Vector.toList_inj] at same
      obtain ⟨rfl, later⟩ := same
      exact ⟨.same _, later⟩

theorem digestItems_append_inj : ∀ (lefts rights : List Value) {rest rest' : Digest},
    lefts.length = rights.length → digestItems lefts ++ rest = digestItems rights ++ rest' →
      List.Forall₂ Identical lefts rights ∧ rest = rest'
  | [], [], _, _, _, same => ⟨.nil, same⟩
  | left :: lefts, right :: rights, _, _, sizes, same => by
      rw [digestItems, digestItems, List.append_assoc, List.append_assoc] at same
      obtain ⟨first, later⟩ := digest_append_inj left right same
      obtain ⟨others, last⟩ := digestItems_append_inj lefts rights (Nat.succ.inj sizes) later
      exact ⟨.cons first others, last⟩

end

end Value

/-- **Lists of values have one digest when they are identical one by one.** -/
theorem Digest.ofValues_eq_iff {values others : List Value} :
    ofValues values = ofValues others ↔ List.Forall₂ Value.Identical values others := by
  rw [ofValues, ofValues, List.cons.injEq, KeyToken.length.injEq]
  refine ⟨fun ⟨sizes, same⟩ => ?_, fun identical => ?_⟩
  · have appended := congrArg (· ++ ([] : Digest)) same
    exact (Value.digestItems_append_inj values others sizes appended).1
  · exact ⟨identical.length_eq, Value.digestItems_eq_of_identical values others identical⟩

namespace Key

variable [Hashable Digest]

/-- The hash tells the digests of the given lists of values apart. -/
def Apart (keys : Set (List Value)) : Prop :=
  (Digest.ofValues '' keys).InjOn Hashable.hash

/-- **Keys are equal when the types are the same and the values are identical**, if the hash tells
the values apart. -/
theorem ofValues_eq_iff {model other : Model} {keys : Set (List Value)} {values others : List Value}
    (apart : Apart keys) (first : values ∈ keys) (second : others ∈ keys) :
    ofValues model values = ofValues other others ↔
      model.entity.typeName = other.entity.typeName ∧
        List.Forall₂ Value.Identical values others := by
  rw [ofValues, ofValues, Key.mk.injEq, ← Digest.ofValues_eq_iff,
    apart.eq_iff (Set.mem_image_of_mem _ first) (Set.mem_image_of_mem _ second)]

/-- Finitely many lists of values are told apart when their hashes are different. -/
theorem apart_of_nodup {keys : List (List Value)}
    (different : (keys.map fun values => Hashable.hash (Digest.ofValues values)).Nodup) :
    Apart {values | values ∈ keys} := by
  rintro _ ⟨values, listed, rfl⟩ _ ⟨others, listed', rfl⟩ same
  exact congrArg Digest.ofValues (List.inj_on_of_nodup_map different listed listed' same)

end Key

end LazyMapper
