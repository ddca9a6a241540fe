import LazyMapper.Attribute.Words

/-!
# Sets of attributes

The attributes of an entity are numbered from zero in the order of their declaration. A set of
them holds one flag per attribute in words of 64 bits. There are as many words as the flags need,
and no flag is on behind the last attribute, so two sets are equal exactly when they are over the
same number of attributes and have the same members. Numbers of no attribute are never members;
putting one in or taking one out changes nothing.
-/

set_option autoImplicit false

namespace LazyMapper

/-- A set of attribute numbers below a fixed bound. -/
structure AttributeSet where
  /-- The number of attributes the set is over. -/
  size : Nat
  words : Words
  length_words : words.length = Words.room size
  flag_eq_false : ∀ index, size ≤ index → words.flag index = false
deriving DecidableEq, Repr

namespace AttributeSet

/-- The set over `size` attributes without members. -/
def empty (size : Nat) : AttributeSet where
  size
  words := List.replicate (Words.room size) 0#64
  length_words := List.length_replicate
  flag_eq_false index _ := Words.flag_replicate_zero (Words.room size) index

/-- The set is over no attributes at all. A set over some attributes may have no members. -/
def isOverNothing (set : AttributeSet) : Bool := set.size == 0

/-- The number is a member. -/
def contains (set : AttributeSet) (index : Nat) : Bool :=
  index < set.size && set.words.flag index

instance : Membership Nat AttributeSet := ⟨fun set index => set.contains index = true⟩

instance (set : AttributeSet) (index : Nat) : Decidable (index ∈ set) :=
  inferInstanceAs (Decidable (set.contains index = true))

/-- The set with one more member. -/
def insert (set : AttributeSet) (index : Nat) : AttributeSet :=
  if inside : index < set.size then
    { set with
      words := set.words.switchOn index
      length_words := (set.words.length_switchOn index).trans set.length_words
      flag_eq_false := fun other outside => by
        have apart : other ≠ index := Nat.ne_of_gt (Nat.lt_of_lt_of_le inside outside)
        simp [Words.flag_switchOn, set.flag_eq_false other outside, apart] }
  else set

/-- The set with one member less. -/
def erase (set : AttributeSet) (index : Nat) : AttributeSet :=
  if index < set.size then
    { set with
      words := set.words.switchOff index
      length_words := (set.words.length_switchOff index).trans set.length_words
      flag_eq_false := fun other outside => by
        simp [Words.flag_switchOff, set.flag_eq_false other outside] }
  else set

/-- The set with more members. -/
def insertAll (set : AttributeSet) (indices : List Nat) : AttributeSet :=
  indices.foldl insert set

/-- The set with fewer members. -/
def eraseAll (set : AttributeSet) (indices : List Nat) : AttributeSet :=
  indices.foldl erase set

/-- The set of the given members. -/
def ofList (size : Nat) (indices : List Nat) : AttributeSet := (empty size).insertAll indices

/-- The set of all of `size` attributes. -/
def full (size : Nat) : AttributeSet := ofList size (List.range size)

/-- The members in increasing order. -/
def toList (set : AttributeSet) : List Nat := (List.range set.size).filter set.contains

/-- The number of members. -/
def count (set : AttributeSet) : Nat :=
  set.words.foldr (fun word total => word.cpop.toNat + total) 0

/-- The members that are also among the given numbers. -/
def restrict (set : AttributeSet) (indices : List Nat) : AttributeSet :=
  ofList set.size (indices.filter set.contains)

end AttributeSet

end LazyMapper
