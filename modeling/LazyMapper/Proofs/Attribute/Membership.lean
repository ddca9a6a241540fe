import LazyMapper.Attribute.Set

/-!
# Members of attribute sets

Which numbers are members after each change of an attribute set. The size of a set never
changes, and no number at or above it is ever a member. A number is a member when its flag is on,
as no flag is on behind the last attribute (`AttributeSet.contains_eq_flag`).
-/

set_option autoImplicit false

namespace LazyMapper.AttributeSet

variable (set : AttributeSet)

/-! ## Flags -/

theorem contains_eq_flag (index : Nat) : set.contains index = set.words.flag index := by
  by_cases inside : index < set.size
  · simp [contains, inside]
  · simp [contains, inside, set.flag_eq_false index (Nat.not_lt.mp inside)]

theorem lt_size_of_contains {set : AttributeSet} {index : Nat} (member : set.contains index) :
    index < set.size :=
  of_decide_eq_true (Bool.and_eq_true_iff.mp member).1

/-- Every attribute has a word for its flag. -/
theorem lt_length_words {set : AttributeSet} {index : Nat} (inside : index < set.size) :
    index / 64 < set.words.length := by
  rw [set.length_words, Words.room]
  omega

/-! ## Sizes -/

@[simp] theorem size_insert (index : Nat) : (set.insert index).size = set.size := by
  unfold insert
  split <;> rfl

@[simp] theorem size_erase (index : Nat) : (set.erase index).size = set.size := by
  unfold erase
  split <;> rfl

@[simp] theorem size_insertAll (indices : List Nat) :
    (set.insertAll indices).size = set.size := by
  induction indices generalizing set with
  | nil => rfl
  | cons index rest ih => rw [insertAll, List.foldl_cons, ← insertAll, ih, size_insert]

@[simp] theorem size_eraseAll (indices : List Nat) :
    (set.eraseAll indices).size = set.size := by
  induction indices generalizing set with
  | nil => rfl
  | cons index rest ih => rw [eraseAll, List.foldl_cons, ← eraseAll, ih, size_erase]

@[simp] theorem size_ofList (size : Nat) (indices : List Nat) :
    (ofList size indices).size = size := by
  rw [ofList, size_insertAll]
  rfl

@[simp] theorem size_restrict (indices : List Nat) :
    (set.restrict indices).size = set.size := by
  rw [restrict, size_ofList]

/-! ## Members -/

@[simp] theorem contains_empty (size index : Nat) : (empty size).contains index = false := by
  rw [contains_eq_flag]
  exact Words.flag_replicate_zero (Words.room size) index

theorem contains_insert (index other : Nat) :
    (set.insert index).contains other ↔
      set.contains other ∨ (other = index ∧ index < set.size) := by
  rw [insert]
  split
  · rename_i inside
    simp [contains_eq_flag, Words.flag_switchOn, lt_length_words inside, inside]
  · rename_i outside
    simp [outside]

theorem contains_erase (index other : Nat) :
    (set.erase index).contains other ↔ set.contains other ∧ other ≠ index := by
  rw [erase]
  split
  · simp [contains_eq_flag, Words.flag_switchOff]
  · rename_i outside
    refine (and_iff_left_of_imp fun member same => ?_).symm
    exact outside (same ▸ lt_size_of_contains member)

theorem contains_insertAll (indices : List Nat) (other : Nat) :
    (set.insertAll indices).contains other ↔
      set.contains other ∨ (other ∈ indices ∧ other < set.size) := by
  induction indices generalizing set with
  | nil => simp [insertAll]
  | cons index rest ih =>
      rw [insertAll, List.foldl_cons, ← insertAll, ih, contains_insert, size_insert,
        List.mem_cons]
      constructor
      · rintro ((before | ⟨rfl, inside⟩) | ⟨later, inside⟩)
        · exact .inl before
        · exact .inr ⟨.inl rfl, inside⟩
        · exact .inr ⟨.inr later, inside⟩
      · rintro (before | ⟨rfl | later, inside⟩)
        · exact .inl (.inl before)
        · exact .inl (.inr ⟨rfl, inside⟩)
        · exact .inr ⟨later, inside⟩

theorem contains_eraseAll (indices : List Nat) (other : Nat) :
    (set.eraseAll indices).contains other ↔ set.contains other ∧ other ∉ indices := by
  induction indices generalizing set with
  | nil => simp [eraseAll]
  | cons index rest ih =>
      rw [eraseAll, List.foldl_cons, ← eraseAll, ih, contains_erase, List.mem_cons, not_or,
        and_assoc]

theorem contains_ofList (size : Nat) (indices : List Nat) (index : Nat) :
    (ofList size indices).contains index ↔ index ∈ indices ∧ index < size := by
  rw [ofList, contains_insertAll, contains_empty]
  simp [empty]

theorem contains_restrict (indices : List Nat) (index : Nat) :
    (set.restrict indices).contains index ↔ set.contains index ∧ index ∈ indices := by
  rw [restrict, contains_ofList, List.mem_filter]
  constructor
  · rintro ⟨⟨given, member⟩, -⟩
    exact ⟨member, given⟩
  · rintro ⟨member, given⟩
    exact ⟨⟨given, member⟩, lt_size_of_contains member⟩

/-- Members stay members when more are put in. -/
theorem contains_insertAll_of_contains {set : AttributeSet} {index : Nat} (indices : List Nat)
    (member : set.contains index) : (set.insertAll indices).contains index :=
  (set.contains_insertAll indices index).mpr (.inl member)

end LazyMapper.AttributeSet
