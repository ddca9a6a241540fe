import LazyMapper.Proofs.Attribute.Membership
import Mathlib.Data.List.Induction

/-!
# Attribute sets under any changes

A set that starts without members or with all of them, and is changed any number of times, has those
members that were put in last, and of the untouched numbers those that it had at first. Its words
hold nothing else: every bit of them belongs to one number (`Words.getLsbD_getElem`), so words with
the same flags are the same (`Words.ext_flag`), and the bits that are set can be counted word by
word (`Words.countP_flag`). Hence counting and listing agree, and sets are compared by their members
(`AttributeSet.holds_last_inserted`).
-/

set_option autoImplicit false

namespace LazyMapper

/-! ## The bits of the words -/

namespace Word

theorem cpopNatRec_eq_countP (word : Word) (count : Nat) :
    word.cpopNatRec count 0 = (List.range count).countP fun bit => word.getLsbD bit := by
  induction count with
  | zero => rfl
  | succ count ih =>
      rw [BitVec.cpopNatRec_succ, BitVec.cpopNatRec_eq, ih, List.range_succ, List.countP_append,
        List.countP_singleton, Nat.zero_add]
      cases word.getLsbD count <;> rfl

theorem toNat_cpop_eq_countP (word : Word) :
    word.cpop.toNat = (List.range 64).countP fun bit => word.getLsbD bit := by
  rw [BitVec.toNat_cpop, cpopNatRec_eq_countP]

end Word

namespace Words

/-- The bits of a word are the flags of 64 numbers in a row. -/
theorem getLsbD_getElem {words : Words} {place bit : Nat} (inside : place < words.length)
    (low : bit < 64) : words[place].getLsbD bit = words.flag (64 * place + bit) := by
  have word : (64 * place + bit) / 64 = place := by omega
  have position : (64 * place + bit) % 64 = bit := by omega
  rw [flag, word, List.getElem?_eq_getElem inside, Option.any_some, Word.holds_eq, position]

/-- Words with the same flags are the same. -/
theorem ext_flag {words others : Words} (length : words.length = others.length)
    (flags : ∀ index, words.flag index = others.flag index) : words = others := by
  refine List.ext_getElem length fun place inside inside' => ?_
  refine BitVec.eq_of_getLsbD_eq fun bit low => ?_
  rw [getLsbD_getElem inside low, getLsbD_getElem inside' low, flags]

theorem flag_cons_of_lt (word : Word) (rest : Words) {index : Nat} (low : index < 64) :
    flag (word :: rest) index = word.getLsbD index := by
  have position : index % 64 = index := Nat.mod_eq_of_lt low
  rw [flag, Nat.div_eq_of_lt low, List.getElem?_cons_zero, Option.any_some, Word.holds_eq, position]

theorem flag_cons_add (word : Word) (rest : Words) (index : Nat) :
    flag (word :: rest) (64 + index) = rest.flag index := by
  have place : (64 + index) / 64 = index / 64 + 1 := by omega
  have position : (64 + index) % 64 = index % 64 := by omega
  rw [flag, flag, place, List.getElem?_cons_succ]
  simp only [Word.holds_eq, position]

/-- Counting the bits of each word counts the flags that are on. -/
theorem countP_flag (words : Words) :
    words.foldr (fun word total => word.cpop.toNat + total) 0 =
      (List.range (64 * words.length)).countP fun index => words.flag index := by
  induction words with
  | nil => rfl
  | cons word rest ih =>
      have own : (List.range 64).countP (fun bit => word.getLsbD bit) =
          (List.range 64).countP fun index => flag (word :: rest) index :=
        List.countP_congr fun index low => by
          rw [flag_cons_of_lt word rest (List.mem_range.mp low)]
      have room : 64 * (word :: rest).length = 64 + 64 * rest.length := by
        rw [List.length_cons]
        omega
      rw [List.foldr_cons, ih, Word.toNat_cpop_eq_countP, own, room, List.range_add,
        List.countP_append, List.countP_map]
      refine congrArg _ (List.countP_congr fun index _ => ?_)
      rw [Function.comp_apply, flag_cons_add]

end Words

namespace AttributeSet

/-! ## Counting, listing and comparing -/

variable (set : AttributeSet)

theorem size_le_bits : set.size ≤ 64 * set.words.length := by
  rw [set.length_words, Words.room]
  omega

theorem count_eq_length : set.count = set.toList.length := by
  obtain ⟨behind, bits⟩ := Nat.exists_eq_add_of_le set.size_le_bits
  have none : (List.range behind).countP (fun index => set.words.flag (set.size + index)) = 0 := by
    refine List.countP_eq_zero.mpr fun index _ => ?_
    simp [set.flag_eq_false (set.size + index) (Nat.le_add_right ..)]
  calc
    set.count = (List.range (64 * set.words.length)).countP fun index => set.words.flag index :=
      Words.countP_flag set.words
    _ = (List.range set.size).countP fun index => set.words.flag index := by
      rw [bits, List.range_add, List.countP_append, List.countP_map]
      exact (congrArg _ none).trans (Nat.add_zero _)
    _ = set.toList.length := by
      rw [List.countP_eq_length_filter, toList]
      exact congrArg List.length
        (List.filter_congr fun index _ => (set.contains_eq_flag index).symm)

theorem mem_toList (index : Nat) : index ∈ set.toList ↔ set.contains index := by
  rw [toList, List.mem_filter, List.mem_range]
  exact and_iff_right_of_imp lt_size_of_contains

theorem toList_sorted : set.toList.Pairwise (· < ·) :=
  List.Pairwise.filter _ List.pairwise_lt_range

/-- Sets are compared by their sizes and their members. -/
theorem eq_iff_contains {set other : AttributeSet} :
    set = other ↔ set.size = other.size ∧ ∀ index, set.contains index = other.contains index := by
  constructor
  · rintro rfl
    exact ⟨rfl, fun _ => rfl⟩
  · rintro ⟨size, members⟩
    have length : set.words.length = other.words.length := by
      rw [set.length_words, other.length_words, size]
    have words : set.words = other.words := Words.ext_flag length fun index => by
      rw [← contains_eq_flag, ← contains_eq_flag, members]
    cases set
    cases other
    cases size
    cases words
    rfl

/-! ## Changes -/

/-- A change of an attribute set. -/
inductive Change where
  | insert (index : Nat)
  | erase (index : Nat)
deriving DecidableEq

/-- The number that is put in or taken out. -/
def Change.index : Change → Nat
  | .insert index => index
  | .erase index => index

/-- The set after a change. -/
def change (set : AttributeSet) : Change → AttributeSet
  | .insert index => set.insert index
  | .erase index => set.erase index

/-- The set after changes, one after the other. -/
def after (set : AttributeSet) (changes : List Change) : AttributeSet := changes.foldl change set

/-- The last of the changes that puts a number in or takes it out. -/
def lastChange? (changes : List Change) (index : Nat) : Option Change :=
  changes.reverse.find? fun change => change.index == index

theorem after_concat (changes : List Change) (last : Change) :
    set.after (changes ++ [last]) = (set.after changes).change last := by
  rw [after, List.foldl_append, ← after]
  rfl

theorem lastChange?_concat (changes : List Change) (last : Change) (index : Nat) :
    lastChange? (changes ++ [last]) index =
      if last.index = index then some last else lastChange? changes index := by
  rw [lastChange?, List.reverse_concat]
  by_cases same : last.index = index
  · rw [List.find?_cons_of_pos (by simpa using same), if_pos same]
  · rw [List.find?_cons_of_neg (by simpa using same), if_neg same, lastChange?]

@[simp] theorem size_change (change : Change) : (set.change change).size = set.size := by
  cases change with
  | insert index => exact set.size_insert index
  | erase index => exact set.size_erase index

/-- A change settles whether its own number is a member, and of no other one. -/
theorem contains_change (change : Change) (index : Nat) :
    (set.change change).contains index ↔
      if change.index = index then change = .insert index ∧ index < set.size
      else set.contains index := by
  cases change with
  | insert own =>
      rw [AttributeSet.change, contains_insert, Change.index]
      split
      · rename_i same
        subst same
        exact ⟨fun member => ⟨rfl, member.elim lt_size_of_contains And.right⟩,
          fun member => .inr ⟨rfl, member.2⟩⟩
      · rename_i apart
        exact or_iff_left fun member => apart member.1.symm
  | erase own =>
      rw [AttributeSet.change, contains_erase, Change.index]
      split
      · rename_i same
        subst same
        simp
      · rename_i apart
        exact and_iff_left fun same => apart same.symm

@[simp] theorem size_after (changes : List Change) : (set.after changes).size = set.size := by
  induction changes using List.reverseRecOn with
  | nil => rfl
  | append_singleton changes last ih => rw [after_concat, size_change, ih]

/-- After any changes the last one of a number settles whether it is a member. -/
theorem contains_after (changes : List Change) (index : Nat) :
    (set.after changes).contains index ↔ index < set.size ∧
      (lastChange? changes index = some (.insert index) ∨
        lastChange? changes index = none ∧ set.contains index) := by
  induction changes using List.reverseRecOn with
  | nil =>
      have untouched : lastChange? [] index = none := rfl
      simpa [after, untouched] using lt_size_of_contains
  | append_singleton changes last ih =>
      rw [after_concat, contains_change, lastChange?_concat, size_after]
      split
      · simp [and_comm]
      · exact ih

/-- The set over `size` attributes with no members, or with all. -/
def start (size : Nat) (whole : Bool) : AttributeSet := if whole then full size else empty size

theorem size_start (size : Nat) (whole : Bool) : (start size whole).size = size := by
  cases whole with
  | false => rfl
  | true => exact size_ofList size (List.range size)

theorem contains_start (size : Nat) (whole : Bool) (index : Nat) :
    (start size whole).contains index ↔ index < size ∧ whole := by
  cases whole with
  | false => simp [start]
  | true => simp [start, full, contains_ofList]

/-- **An attribute set holds what was put in last.** Let a set over any number of attributes start
without members or with all of them, and change it any number of times, with any numbers. Its size
stays what it was. A number is a member when it is below the size and the last change of it put it
in, or nothing has changed it and all were members at first. The list of the members holds exactly
these, in increasing order, and their number is the count. Of two such sets the comparison says
whether they have the same size and the same members. -/
theorem holds_last_inserted (size : Nat) (whole : Bool) (changes : List Change) :
    let set := (start size whole).after changes
    set.size = size ∧
    (∀ index, set.contains index ↔ index < size ∧
      (lastChange? changes index = some (.insert index) ∨
        lastChange? changes index = none ∧ whole)) ∧
    (∀ index, index ∈ set.toList ↔ set.contains index) ∧
    set.toList.Pairwise (· < ·) ∧
    set.count = set.toList.length ∧
    ∀ (otherSize : Nat) (otherWhole : Bool) (others : List Change),
      let other := (start otherSize otherWhole).after others
      set == other ↔ size = otherSize ∧ ∀ index, set.contains index = other.contains index := by
  intro set
  have sized : set.size = size := by rw [size_after, size_start]
  refine ⟨sized, fun index => ?_, set.mem_toList, set.toList_sorted, set.count_eq_length,
    fun otherSize otherWhole others => ?_⟩
  · rw [contains_after, size_start, contains_start]
    constructor
    · rintro ⟨inside, last | ⟨untouched, -, initial⟩⟩
      · exact ⟨inside, .inl last⟩
      · exact ⟨inside, .inr ⟨untouched, initial⟩⟩
    · rintro ⟨inside, last | ⟨untouched, initial⟩⟩
      · exact ⟨inside, .inl last⟩
      · exact ⟨inside, .inr ⟨untouched, inside, initial⟩⟩
  · intro other
    have sized' : other.size = otherSize := by rw [size_after, size_start]
    rw [beq_iff_eq, eq_iff_contains, sized, sized']

/-- At the border of two words a change touches one of them. -/
example : ((start 70 true).after [.erase 63, .erase 64, .insert 63, .insert 70]).toList =
    (List.range 70).filter (· != 64) := by decide +kernel

end AttributeSet

end LazyMapper
