/-!
# Flags in words

A row of flags is kept in words of 64 bits. The flag of an index is a bit of one word: which word,
the quotient of the index says, and which bit, the remainder. Switching a flag on or off changes
this bit and no other (`Words.flag_switchOn`, `Words.flag_switchOff`), and nothing at all where
there is no word for the index.
-/

set_option autoImplicit false

namespace LazyMapper

/-! ## One word -/

/-- A row of 64 bits. -/
abbrev Word := BitVec 64

namespace Word

/-- The word with one bit set, that of an index. -/
def mask (index : Nat) : Word := 1#64 <<< (index % 64)

/-- The bit of an index is set. -/
def holds (word : Word) (index : Nat) : Bool := word &&& mask index != 0#64

theorem getLsbD_mask (index position : Nat) :
    (mask index).getLsbD position = decide (index % 64 = position) := by
  have inside : index % 64 < 64 := Nat.mod_lt index (by decide)
  rw [mask, ← BitVec.twoPow, BitVec.getLsbD_twoPow, decide_eq_true inside, Bool.true_and]

theorem holds_eq (word : Word) (index : Nat) :
    word.holds index = word.getLsbD (index % 64) := by
  have own : (mask index).getLsbD (index % 64) = true := by simp [getLsbD_mask]
  have nonzero : mask index ≠ 0#64 := fun zero => by simp [zero] at own
  rw [mask, ← BitVec.twoPow] at nonzero
  rw [holds, mask, ← BitVec.twoPow, BitVec.and_twoPow]
  cases word.getLsbD (index % 64) with
  | false => rfl
  | true => simpa using nonzero

theorem holds_zero (index : Nat) : holds 0#64 index = false := by
  rw [holds_eq, BitVec.getLsbD_zero]

theorem holds_or_mask (word : Word) (index other : Nat) :
    (word ||| mask index).holds other =
      (word.holds other || decide (index % 64 = other % 64)) := by
  rw [holds_eq, holds_eq, BitVec.getLsbD_or, getLsbD_mask]

theorem holds_and_not_mask (word : Word) (index other : Nat) :
    (word &&& ~~~mask index).holds other =
      (word.holds other && !decide (index % 64 = other % 64)) := by
  have inside : other % 64 < 64 := Nat.mod_lt other (by decide)
  rw [holds_eq, holds_eq, BitVec.getLsbD_and, BitVec.getLsbD_not, getLsbD_mask,
    decide_eq_true inside, Bool.true_and]

end Word

/-! ## Rows of words -/

/-- A row of flags, 64 to a word. -/
abbrev Words := List Word

namespace Words

/-- The number of words for so many flags. -/
def room (size : Nat) : Nat := (size + 63) / 64

/-- The flag of an index is on. -/
def flag (words : Words) (index : Nat) : Bool :=
  words[index / 64]?.any fun word => word.holds index

/-- The words with the flag of an index on. -/
def switchOn (words : Words) (index : Nat) : Words :=
  words.modify (index / 64) fun word => word ||| Word.mask index

/-- The words with the flag of an index off. -/
def switchOff (words : Words) (index : Nat) : Words :=
  words.modify (index / 64) fun word => word &&& ~~~Word.mask index

theorem length_switchOn (words : Words) (index : Nat) :
    (words.switchOn index).length = words.length :=
  List.length_modify ..

theorem length_switchOff (words : Words) (index : Nat) :
    (words.switchOff index).length = words.length :=
  List.length_modify ..

theorem flag_replicate_zero (count index : Nat) :
    flag (List.replicate count 0#64) index = false := by
  rw [flag, List.getElem?_replicate]
  split
  · exact Word.holds_zero index
  · rfl

/-- The same word and the same bit of it belong to one index alone. -/
theorem eq_of_same_bit {index other : Nat} (word : index / 64 = other / 64)
    (bit : index % 64 = other % 64) : index = other := by
  omega

theorem flag_switchOn (words : Words) (index other : Nat) :
    (words.switchOn index).flag other =
      (words.flag other || decide (other = index ∧ index / 64 < words.length)) := by
  rw [flag, switchOn, List.getElem?_modify]
  by_cases here : index / 64 = other / 64
  · rw [flag, ← here]
    cases found : words[index / 64]? with
    | none =>
        have missing : ¬ index / 64 < words.length := by simpa using found
        simp [missing]
    | some word =>
        have inside := (List.getElem?_eq_some_iff.mp found).1
        have same : other = index ↔ index % 64 = other % 64 :=
          ⟨fun same => same ▸ rfl, fun bit => (eq_of_same_bit here bit).symm⟩
        simp [Word.holds_or_mask, inside, same]
  · have apart : other ≠ index := fun same => here (same ▸ rfl)
    simp [flag, here, apart]

theorem flag_switchOff (words : Words) (index other : Nat) :
    (words.switchOff index).flag other = (words.flag other && !decide (other = index)) := by
  rw [flag, switchOff, List.getElem?_modify]
  by_cases here : index / 64 = other / 64
  · rw [flag, ← here]
    cases words[index / 64]? with
    | none => rfl
    | some word =>
        have same : other = index ↔ index % 64 = other % 64 :=
          ⟨fun same => same ▸ rfl, fun bit => (eq_of_same_bit here bit).symm⟩
        simp [Word.holds_and_not_mask, same]
  · have apart : other ≠ index := fun same => here (same ▸ rfl)
    simp [flag, here, apart]

end Words

end LazyMapper
